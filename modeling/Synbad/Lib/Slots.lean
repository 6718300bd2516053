import Mathlib.Data.Nat.Notation
import Mathlib.Logic.Function.Basic

/-! # Places that hold one thing or nothing

A store of whole things, such as the files of a directory as far as they are replaced and not edited:
each place holds one value or none. Renaming takes what one place holds to another, over what was
there, in one step. What it leaves at the destination, at the source and anywhere else is one lemma
each, so that a sequence of renames is followed by rewriting.

A value may be a link that leads to another place. Renaming moves the link itself, while whoever
follows links acts on what is at their end; `follow` is where a place leads if up to so many links are
followed, a number that is bounded as links may lead in a circle. The two differ exactly where a link
is involved, which is why a program that checks a place by following links and then renames it may
take away something else than what it checked. -/

namespace Slots

variable {π ν : Type*} [DecidableEq π]

/-- Move what `src` holds to `dst`, over what was there; afterwards `src` is empty. A place that is
renamed to itself is left alone. -/
def rename (fs : π → Option ν) (src dst : π) : π → Option ν :=
  if src = dst then fs else Function.update (Function.update fs dst (fs src)) src none

variable {fs : π → Option ν} {src dst p : π}

/-- After a rename the destination holds what the source held. -/
theorem rename_dst (fs : π → Option ν) (src dst : π) : rename fs src dst dst = fs src := by
  unfold rename
  by_cases h : src = dst
  · rw [if_pos h, h]
  · rw [if_neg h, Function.update_of_ne (fun heq => h heq.symm), Function.update_self]

/-- After a rename to another place the source is empty. -/
theorem rename_src (h : src ≠ dst) : rename fs src dst src = none := by
  rw [rename, if_neg h, Function.update_self]

/-- **No other place is touched**: a place that is neither source nor destination of a rename holds
what it held. -/
theorem rename_of_ne (hsrc : p ≠ src) (hdst : p ≠ dst) : rename fs src dst p = fs p := by
  unfold rename
  by_cases h : src = dst
  · rw [if_pos h]
  · rw [if_neg h, Function.update_of_ne hsrc, Function.update_of_ne hdst]

/-! ## Links -/

variable {link : π → ν → Option π}

omit [DecidableEq π]

/-- Where a place leads if up to so many links are followed: `link p v` says where the value `v` leads
when it lies at `p`, if it is a link at all. -/
def follow (link : π → ν → Option π) (fs : π → Option ν) : ℕ → π → π
  | 0, p => p
  | n + 1, p =>
      match (fs p).bind (link p) with
      | none => p
      | some q => follow link fs n q

/-- A place that holds no link leads to itself. -/
theorem follow_of_none (h : (fs p).bind (link p) = none) (n : ℕ) : follow link fs n p = p := by
  cases n with
  | zero => rfl
  | succ n => rw [follow, h]

end Slots
