import Synbad.Ipc.LogParse
import Mathlib.Data.List.TakeWhile

/-! # The grammar of signal lines

What `log_parse::parse` accepts, stated as a grammar: white space, a timestamp, white space, a level
and a body that says what happened. The parser tests its prefixes before it looks at the body, so the
point is that no body can be taken for a prefix.

`Says` gives each of the three bodies with its names in it, and `Grammar` puts the prefixes in front.
The parser drops a timestamp wherever it sees one, also in front of a text that is none of its bodies;
so for the direction from the grammar to the parser it has to be shown that what follows the prefixes
is left alone (`stripTimestamp_append`, `stripLevel_append`), and for the other direction that
whatever was dropped is a prefix of the grammar (`exists_timestamp`). Names are texts without a quote
and may otherwise look like anything.

`parse_exact` is the result: the parser accepts exactly its grammar, and no line carries two events. -/

namespace Synbad

namespace LogParse

/-! ## What the parser recognises in a body -/

/-- A line the parser takes for a signal, after its prefix. -/
inductive CoreSignal : List Char → Prop
  | connected (name rest : List Char) (quoted : '"' ∉ name) :
      CoreSignal ("client ".toList ++ ("\"".toList ++ (name ++ '"' :: (" has connected".toList ++ rest))))
  | disconnected (name rest : List Char) (quoted : '"' ∉ name) :
      CoreSignal
        ("client ".toList ++ ("\"".toList ++ (name ++ '"' :: (" has disconnected".toList ++ rest))))
  | switched (source target rest : List Char) (from_quoted : '"' ∉ source)
      (to_quoted : '"' ∉ target) :
      CoreSignal
        ("switch from \"".toList ++ (source ++ '"' :: (" to \"".toList ++ (target ++ '"' :: rest))))

/-- A prefix is stripped off what begins with it. -/
theorem stripPrefix_eq_some {p : String} {s rest : List Char} :
    stripPrefix p s = some rest ↔ s = p.toList ++ rest := by
  rw [stripPrefix, List.isPrefixOf?_eq_some_iff_append_eq, eq_comm]

/-- A character is looked for up to its first occurrence. -/
theorem afterChar_eq_some {c : Char} {s rest : List Char} :
    afterChar c s = some rest ↔ ∃ token, c ∉ token ∧ s = token ++ c :: rest := by
  induction s with
  | nil => simp [afterChar]
  | cons d ds ih =>
      by_cases hd : d = c
      · subst hd
        constructor
        · intro h
          simp only [afterChar, beq_self_eq_true, if_true, Option.some.injEq] at h
          exact ⟨[], List.not_mem_nil, by rw [h, List.nil_append]⟩
        · rintro ⟨token, hc, heq⟩
          cases token with
          | nil => simpa [afterChar] using heq
          | cons t ts =>
              exact absurd (List.mem_cons.mpr (Or.inl (List.cons.inj heq).1)) hc
      · have hne : (d == c) = false := by simpa using hd
        rw [afterChar, hne, if_neg (by simp), ih]
        constructor
        · rintro ⟨token, hc, rfl⟩
          refine ⟨d :: token, ?_, rfl⟩
          rw [List.mem_cons, not_or]
          exact ⟨fun h => hd h.symm, hc⟩
        · rintro ⟨token, hc, heq⟩
          cases token with
          | nil => exact absurd (List.cons.inj heq).1 hd
          | cons t ts =>
              exact ⟨ts, fun h => hc (List.mem_cons_of_mem _ h), (List.cons.inj heq).2⟩

/-- What comes before the first quote is a name without quotes. -/
theorem takeWhile_quote {name rest : List Char} (h : '"' ∉ name) :
    (name ++ '"' :: rest).takeWhile (· != '"') = name := by
  have hname : ∀ c ∈ name, (c != '"') = true := fun c hc => bne_iff_ne.mpr fun heq => h (heq ▸ hc)
  rw [List.takeWhile_append_of_pos hname, List.takeWhile_cons_of_neg (by simp), List.append_nil]

/-- **Up to the quote**: the name has none, and one follows it. -/
theorem untilQuote_eq_some {s name rest : List Char} :
    untilQuote s = some (name, rest) ↔ s = name ++ '"' :: rest ∧ '"' ∉ name := by
  unfold untilQuote
  rw [Option.map_eq_some_iff]
  constructor
  · rintro ⟨r, hafter, heq⟩
    obtain ⟨token, htoken, rfl⟩ := afterChar_eq_some.mp hafter
    obtain ⟨hname, rfl⟩ := Prod.mk.inj heq
    rw [takeWhile_quote htoken] at hname
    rw [← hname]
    exact ⟨rfl, htoken⟩
  · rintro ⟨rfl, hname⟩
    refine ⟨rest, afterChar_eq_some.mpr ⟨name, hname, rfl⟩, ?_⟩
    rw [takeWhile_quote hname]

/-- A name in quotes between two texts is found exactly if the body begins with the three, and the
name has no quote. -/
theorem extractQuotedAfter_eq_some {body name : List Char} {before after : String} :
    extractQuotedAfter body before after = some name ↔ '"' ∉ name ∧ ∃ rest,
      body = before.toList ++ ("\"".toList ++ (name ++ '"' :: (after.toList ++ rest))) := by
  simp only [extractQuotedAfter, Option.bind_eq_bind, Option.bind_eq_some_iff, stripPrefix_eq_some,
    Option.pure_def, Option.some.injEq]
  constructor
  · rintro ⟨a, rfl, b, rfl, ⟨name', rest⟩, h, c, rfl, rfl⟩
    obtain ⟨rfl, hname⟩ := untilQuote_eq_some.mp h
    exact ⟨hname, c, rfl⟩
  · rintro ⟨hname, rest, rfl⟩
    exact ⟨_, rfl, _, rfl, (name, after.toList ++ rest), untilQuote_eq_some.mpr ⟨rfl, hname⟩, rest,
      rfl, rfl⟩

/-- A switch from one quoted name to another is found exactly if the body begins so, and neither name
has a quote. -/
theorem extractSwitch_eq_some {body : List Char} {p : List Char × List Char} :
    extractSwitch body = some p ↔ '"' ∉ p.1 ∧ '"' ∉ p.2 ∧ ∃ rest,
      body = "switch from \"".toList ++ (p.1 ++ '"' :: (" to \"".toList ++ (p.2 ++ '"' :: rest))) := by
  simp only [extractSwitch, Option.bind_eq_bind, Option.bind_eq_some_iff, stripPrefix_eq_some,
    Option.pure_def, Option.some.injEq]
  constructor
  · rintro ⟨a, rfl, ⟨source, afterFrom⟩, hsource, b, hb, ⟨target, rest⟩, htarget, rfl⟩
    obtain ⟨rfl, hquoted⟩ := untilQuote_eq_some.mp hsource
    obtain ⟨rfl, hquoted'⟩ := untilQuote_eq_some.mp htarget
    subst hb
    exact ⟨hquoted, hquoted', rest, rfl⟩
  · rintro ⟨hsource, htarget, rest, rfl⟩
    exact ⟨_, rfl, _, untilQuote_eq_some.mpr ⟨rfl, hsource⟩, _, rfl, (p.2, rest),
      untilQuote_eq_some.mpr ⟨rfl, htarget⟩, rfl⟩

/-- **What `parse` recognises**: a line gives an event exactly if it is a signal once its prefix is
dropped. -/
theorem parse_ne_none_iff {line : String} :
    parse line ≠ none ↔ CoreSignal (stripLogPrefix line) := by
  unfold parse
  generalize stripLogPrefix line = body
  constructor
  · intro h
    cases hcon : extractQuotedAfter body "client " " has connected" with
    | some name =>
        obtain ⟨hname, rest, rfl⟩ := extractQuotedAfter_eq_some.mp hcon
        exact .connected name rest hname
    | none =>
        cases hdis : extractQuotedAfter body "client " " has disconnected" with
        | some name =>
            obtain ⟨hname, rest, rfl⟩ := extractQuotedAfter_eq_some.mp hdis
            exact .disconnected name rest hname
        | none =>
            cases hsw : extractSwitch body with
            | some p =>
                obtain ⟨hsource, htarget, rest, rfl⟩ := extractSwitch_eq_some.mp hsw
                exact .switched p.1 p.2 rest hsource htarget
            | none => simp [hcon, hdis, hsw] at h
  · intro h hnone
    -- none of the three extractions found anything
    cases hcon : extractQuotedAfter body "client " " has connected" with
    | some name => simp [hcon] at hnone
    | none =>
        cases hdis : extractQuotedAfter body "client " " has disconnected" with
        | some name => simp [hcon, hdis] at hnone
        | none =>
            cases hsw : extractSwitch body with
            | some p => simp [hcon, hdis, hsw] at hnone
            | none =>
                cases h with
                | connected name rest hname =>
                    rw [extractQuotedAfter_eq_some.mpr ⟨hname, rest, rfl⟩] at hcon
                    cases hcon
                | disconnected name rest hname =>
                    rw [extractQuotedAfter_eq_some.mpr ⟨hname, rest, rfl⟩] at hdis
                    cases hdis
                | switched source target rest hsource htarget =>
                    rw [extractSwitch_eq_some (p := (source, target)).mpr
                      ⟨hsource, htarget, rest, rfl⟩] at hsw
                    cases hsw

/-- The level of a line, if it has one, is dropped. -/
def stripLevel (line : List Char) : List Char :=
  (levelPrefixes.findSome? fun p => stripPrefix p line).getD line

/-- A signal starts with a letter that starts no level. -/
theorem CoreSignal.head {body : List Char} (h : CoreSignal body) :
    ∃ c rest, body = c :: rest ∧ (c = 'c' ∨ c = 's') := by
  cases h with
  | connected name rest hname => exact ⟨_, _, rfl, Or.inl rfl⟩
  | disconnected name rest hname => exact ⟨_, _, rfl, Or.inl rfl⟩
  | switched source target rest hsource htarget => exact ⟨_, _, rfl, Or.inr rfl⟩

/-- Dropping a level, or none, in front of a signal leaves the signal. -/
theorem stripLevel_append {level body : List Char}
    (hlevel : level ∈ [] :: levelPrefixes.map String.toList) (h : CoreSignal body) :
    stripLevel (level ++ body) = body := by
  rcases List.mem_cons.mp hlevel with rfl | hlevel
  · obtain ⟨c, rest, rfl, rfl | rfl⟩ := h.head <;> rfl
  · -- each level is found as itself
    simp only [levelPrefixes, List.map_cons, List.map_nil, List.mem_cons, List.not_mem_nil,
      or_false] at hlevel
    rcases hlevel with rfl | rfl | rfl | rfl | rfl | rfl | rfl | rfl <;> rfl

/-- Neither a level nor a signal starts like white space or a timestamp. -/
theorem head_level {level body : List Char}
    (hlevel : level ∈ [] :: levelPrefixes.map String.toList) (h : CoreSignal body) :
    ∃ c rest, level ++ body = c :: rest ∧ isWhitespace c = false ∧ c ≠ '[' ∧
      (c.isDigit || c == '-') = false := by
  rcases List.mem_cons.mp hlevel with rfl | hlevel
  · obtain ⟨c, rest, rfl, rfl | rfl⟩ := h.head <;> exact ⟨_, rest, rfl, by decide⟩
  · simp only [levelPrefixes, List.map_cons, List.map_nil, List.mem_cons, List.not_mem_nil,
      or_false] at hlevel
    rcases hlevel with rfl | rfl | rfl | rfl | rfl | rfl | rfl | rfl <;>
      exact ⟨_, _, rfl, by decide⟩

/-- Blanks in front are trimmed up to the first character that is none. -/
theorem trimStart_cons {space rest : List Char} {c : Char}
    (hspace : ∀ c ∈ space, isWhitespace c = true) (hc : isWhitespace c = false) :
    trimStart (space ++ c :: rest) = c :: rest := by
  unfold trimStart
  rw [List.dropWhile_append_of_pos hspace, List.dropWhile_cons_of_neg (by simp [hc])]

/-- The white space before a level and a signal is dropped, and no more. -/
theorem trimStart_append {space level body : List Char}
    (hspace : ∀ c ∈ space, isWhitespace c = true)
    (hlevel : level ∈ [] :: levelPrefixes.map String.toList) (h : CoreSignal body) :
    trimStart (space ++ (level ++ body)) = level ++ body := by
  obtain ⟨c, rest, heq, hc, -, -⟩ := head_level hlevel h
  rw [heq, trimStart_cons hspace hc]

/-! ## The grammar -/

/-- What a body says, with its names in it. -/
inductive Says : List Char → Ipc.Event → Prop
  | connected (name : String) (rest : List Char) (quoted : '"' ∉ name.toList) :
      Says ("client \"".toList ++ (name.toList ++ ("\" has connected".toList ++ rest)))
        (.peerConnected name)
  | disconnected (name : String) (rest : List Char) (quoted : '"' ∉ name.toList) :
      Says ("client \"".toList ++ (name.toList ++ ("\" has disconnected".toList ++ rest)))
        (.peerDisconnected name)
  | switched (source target : String) (rest : List Char) (from_quoted : '"' ∉ source.toList)
      (to_quoted : '"' ∉ target.toList) :
      Says ("switch from \"".toList ++
          (source.toList ++ ("\" to \"".toList ++ (target.toList ++ '"' :: rest))))
        (.activeScreen target)

/-- A token in brackets, or a token that starts like a date and the space that ends it. -/
inductive Timestamp : List Char → Prop
  | bracketed (token : List Char) (closed : ']' ∉ token) : Timestamp ('[' :: (token ++ [']']))
  | bare (token : List Char) (long : 10 ≤ token.length)
      (date : ∀ c ∈ token.take 10, c.isDigit ∨ c = '-') (closed : ' ' ∉ token) :
      Timestamp (token ++ [' '])

/-- **The grammar**: which lines carry which event. White space, a timestamp, white space and a level
may come before the body, each of them or none. -/
def Grammar (line : String) (e : Ipc.Event) : Prop :=
  ∃ space stamp space' level body : List Char,
    line.toList = space ++ (stamp ++ (space' ++ (level ++ body))) ∧
    (∀ c ∈ space, isWhitespace c = true) ∧ (stamp = [] ∨ Timestamp stamp) ∧
    (∀ c ∈ space', isWhitespace c = true) ∧ level ∈ [] :: levelPrefixes.map String.toList ∧
    Says body e

/-! ### Bodies -/

/-- Whatever says something to the Core's watcher is a signal. -/
theorem Says.coreSignal {body : List Char} {e : Ipc.Event} (h : Says body e) : CoreSignal body := by
  cases h with
  | connected name rest quoted => exact .connected name.toList rest quoted
  | disconnected name rest quoted => exact .disconnected name.toList rest quoted
  | switched source target rest from_quoted to_quoted =>
      exact .switched source.toList target.toList rest from_quoted to_quoted

/-- A quoted name ends at its quote, so it can be read in one way only. -/
theorem quoted_inj {name name' : String} {rest rest' : List Char} (h : '"' ∉ name.toList)
    (h' : '"' ∉ name'.toList) (heq : name.toList ++ '"' :: rest = name'.toList ++ '"' :: rest') :
    name = name' ∧ rest = rest' := by
  have hname : untilQuote (name.toList ++ '"' :: rest) = some (name.toList, rest) :=
    untilQuote_eq_some.mpr ⟨rfl, h⟩
  have hname' : untilQuote (name.toList ++ '"' :: rest) = some (name'.toList, rest') :=
    untilQuote_eq_some.mpr ⟨heq, h'⟩
  obtain ⟨hlist, hrest⟩ := Prod.mk.inj (Option.some.inj (hname.symm.trans hname'))
  exact ⟨String.toList_inj.mp hlist, hrest⟩

/-- **No body says two things**: the event is determined, with its names. -/
theorem Says.unique {body : List Char} {e e' : Ipc.Event} (h : Says body e) (h' : Says body e') :
    e = e' := by
  -- what is left after the name tells a connection from a disconnection
  have hword : ∀ rest rest' : List Char,
      " has connected".toList ++ rest ≠ " has disconnected".toList ++ rest' := by
    intro rest rest' heq
    simp at heq
  generalize hbody : body = body' at h'
  cases h with
  | connected name rest quoted =>
      cases h' with
      | connected name' rest' quoted' =>
          rw [(quoted_inj quoted quoted' (List.append_cancel_left hbody)).1]
      | disconnected name' rest' quoted' =>
          exact absurd (quoted_inj quoted quoted' (List.append_cancel_left hbody)).2 (hword rest rest')
      | switched source target rest' from_quoted to_quoted => simp at hbody
  | disconnected name rest quoted =>
      cases h' with
      | connected name' rest' quoted' =>
          exact absurd (quoted_inj quoted quoted' (List.append_cancel_left hbody)).2.symm
            (hword rest' rest)
      | disconnected name' rest' quoted' =>
          rw [(quoted_inj quoted quoted' (List.append_cancel_left hbody)).1]
      | switched source target rest' from_quoted to_quoted => simp at hbody
  | switched source target rest from_quoted to_quoted =>
      cases h' with
      | connected name' rest' quoted' => simp at hbody
      | disconnected name' rest' quoted' => simp at hbody
      | switched source' target' rest' from_quoted' to_quoted' =>
          obtain ⟨-, hto⟩ := quoted_inj from_quoted from_quoted' (List.append_cancel_left hbody)
          rw [(quoted_inj to_quoted to_quoted' (List.append_cancel_left hto)).1]

/-- Every list of characters is that of a text. -/
theorem exists_toList (s : List Char) : ∃ text : String, text.toList = s :=
  ⟨String.ofList s, String.toList_ofList⟩

/-- **What `parse` makes of a body** is what the body says, once the prefix is dropped. -/
theorem parse_eq_some_iff {line : String} {e : Ipc.Event} :
    parse line = some e ↔ Says (stripLogPrefix line) e := by
  have sound : ∀ e', parse line = some e' → Says (stripLogPrefix line) e' := by
    intro e' h
    unfold parse at h
    generalize stripLogPrefix line = body at h ⊢
    cases hcon : extractQuotedAfter body "client " " has connected" with
    | some name =>
        obtain ⟨hname, rest, rfl⟩ := extractQuotedAfter_eq_some.mp hcon
        simp only [hcon, Option.some.injEq] at h
        obtain ⟨name, rfl⟩ := exists_toList name
        rw [← h, String.ofList_toList]
        exact .connected name rest hname
    | none =>
        cases hdis : extractQuotedAfter body "client " " has disconnected" with
        | some name =>
            obtain ⟨hname, rest, rfl⟩ := extractQuotedAfter_eq_some.mp hdis
            simp only [hcon, hdis, Option.some.injEq] at h
            obtain ⟨name, rfl⟩ := exists_toList name
            rw [← h, String.ofList_toList]
            exact .disconnected name rest hname
        | none =>
            simp only [hcon, hdis] at h
            obtain ⟨⟨source, target⟩, hsw, rfl⟩ := Option.map_eq_some_iff.mp h
            obtain ⟨hsource, htarget, rest, rfl⟩ := extractSwitch_eq_some.mp hsw
            obtain ⟨source, rfl⟩ := exists_toList source
            obtain ⟨target, rfl⟩ := exists_toList target
            rw [String.ofList_toList]
            exact .switched source target rest hsource htarget
  constructor
  · exact sound e
  · intro h
    -- some signal is found, and what it says is what the body says
    cases hparse : parse line with
    | none => exact absurd hparse (parse_ne_none_iff.mpr h.coreSignal)
    | some e' => rw [(sound e' hparse).unique h]

/-! ### Prefixes -/

/-- The white space at the start of a text. -/
theorem exists_space (s : List Char) :
    ∃ space, s = space ++ trimStart s ∧ ∀ c ∈ space, isWhitespace c = true :=
  ⟨s.takeWhile isWhitespace, List.takeWhile_append_dropWhile.symm,
    fun _ hc => List.mem_takeWhile_imp hc⟩

/-- The level at the start of a text, if there is one. -/
theorem exists_level (s : List Char) :
    ∃ level ∈ [] :: levelPrefixes.map String.toList, s = level ++ stripLevel s := by
  unfold stripLevel
  cases hfind : levelPrefixes.findSome? fun p => stripPrefix p s with
  | none => exact ⟨[], List.mem_cons_self, rfl⟩
  | some body =>
      obtain ⟨level, hlevel, hstrip⟩ := List.exists_of_findSome?_eq_some hfind
      exact ⟨level.toList, List.mem_cons_of_mem _ (List.mem_map_of_mem hlevel),
        stripPrefix_eq_some.mp hstrip⟩

/-- No character of a date is white space, so a date ends at the first space. -/
theorem isWhitespace_of_date {c : Char} (h : (c.isDigit || c == '-') = true) :
    isWhitespace c = false := by
  have hrange : 45 ≤ c.toNat ∧ c.toNat ≤ 57 := by
    rcases (Bool.or_eq_true _ _).mp h with hdigit | hdash
    · have hval := hdigit
      simp only [Char.isDigit, ge_iff_le, Bool.and_eq_true, decide_eq_true_eq, UInt32.le_iff_toNat_le]
        at hval
      change 48 ≤ c.toNat ∧ c.toNat ≤ 57 at hval
      omega
    · rw [eq_of_beq hdash]
      decide
  simp only [isWhitespace, Bool.or_eq_false_iff, Bool.and_eq_false_iff, decide_eq_false_iff_not,
    beq_eq_false_iff_ne]
  omega

/-- A line that starts like neither timestamp is only trimmed. -/
theorem stripTimestamp_of_head {line rest : List Char} {c : Char} (htrim : trimStart line = c :: rest)
    (hopen : c ≠ '[') (hdate : (c.isDigit || c == '-') = false) :
    stripTimestamp line = c :: rest := by
  have hbracket : stripPrefix "[" (c :: rest) = none := by
    rw [Option.eq_none_iff_forall_ne_some]
    intro rest' h
    exact hopen (List.cons.inj (stripPrefix_eq_some.mp h)).1
  have hshort : ((c :: rest).take 10).all (fun c => c.isDigit || c == '-') = false := by
    rw [List.take_succ_cons, List.all_cons, hdate, Bool.false_and]
  unfold stripTimestamp
  simp only [htrim, hbracket, hshort]
  rfl

/-- A token in brackets is dropped, with the white space after it. -/
theorem stripTimestamp_bracketed {line token rest : List Char}
    (htrim : trimStart line = '[' :: (token ++ ']' :: rest)) (closed : ']' ∉ token) :
    stripTimestamp line = trimStart rest := by
  have hbracket : stripPrefix "[" ('[' :: (token ++ ']' :: rest)) = some (token ++ ']' :: rest) :=
    stripPrefix_eq_some.mpr rfl
  have hafter : afterChar ']' (token ++ ']' :: rest) = some rest :=
    afterChar_eq_some.mpr ⟨token, closed, rfl⟩
  unfold stripTimestamp
  simp only [htrim, hbracket, hafter]
  rfl

/-- A token that starts like a date is dropped, with its space and the white space after it. -/
theorem stripTimestamp_bare {line token rest : List Char}
    (htrim : trimStart line = token ++ ' ' :: rest) (long : 10 ≤ token.length)
    (date : ∀ c ∈ token.take 10, c.isDigit ∨ c = '-') (closed : ' ' ∉ token) :
    stripTimestamp line = trimStart rest := by
  have hdate : ((token ++ ' ' :: rest).take 10).all (fun c => c.isDigit || c == '-') = true := by
    rw [List.take_append_of_le_length long, List.all_eq_true]
    intro c hc
    simpa using date c hc
  have hbracket : stripPrefix "[" (token ++ ' ' :: rest) = none := by
    rw [Option.eq_none_iff_forall_ne_some]
    intro rest' h
    -- a bracket is no character of a date
    rw [stripPrefix_eq_some.mp h] at hdate
    revert hdate
    simp
  have hafter : afterChar ' ' (token ++ ' ' :: rest) = some rest :=
    afterChar_eq_some.mpr ⟨token, closed, rfl⟩
  unfold stripTimestamp
  simp only [htrim, hbracket, hdate, hafter]
  rfl

/-- **A timestamp and the white space around it are dropped.** -/
theorem stripTimestamp_append {space stamp space' level body : List Char}
    (hspace : ∀ c ∈ space, isWhitespace c = true) (hstamp : stamp = [] ∨ Timestamp stamp)
    (hspace' : ∀ c ∈ space', isWhitespace c = true)
    (hlevel : level ∈ [] :: levelPrefixes.map String.toList) (h : CoreSignal body) :
    stripTimestamp (space ++ (stamp ++ (space' ++ (level ++ body)))) = level ++ body := by
  have hrest := trimStart_append hspace' hlevel h
  -- without a stamp all blanks in front are trimmed, and what follows starts no stamp
  rcases hstamp with rfl | hstamp
  · obtain ⟨c, rest, heq, -, hopen, hdate⟩ := head_level hlevel h
    have hboth : ∀ c ∈ space ++ space', isWhitespace c = true := by
      intro c hc
      exact (List.mem_append.mp hc).elim (hspace c) (hspace' c)
    have htrim := trimStart_append hboth hlevel h
    rw [List.append_assoc, heq] at htrim
    rw [List.nil_append, heq]
    exact stripTimestamp_of_head htrim hopen hdate
  -- with one, the blanks behind it are what is left to trim
  · cases hstamp with
    | bracketed token closed =>
        have htrim : trimStart (space ++ ('[' :: (token ++ [']']) ++ (space' ++ (level ++ body)))) =
            '[' :: (token ++ ']' :: (space' ++ (level ++ body))) := by
          rw [List.cons_append, trimStart_cons hspace (by decide), List.append_assoc]
          rfl
        rw [stripTimestamp_bracketed htrim closed, hrest]
    | bare token long date closed =>
        have htrim : trimStart (space ++ (token ++ [' '] ++ (space' ++ (level ++ body)))) =
            token ++ ' ' :: (space' ++ (level ++ body)) := by
          cases token with
          | nil => exact absurd long (by simp)
          | cons t ts =>
              have ht : (t.isDigit || t == '-') = true := by
                simpa using date t (by simp)
              rw [List.cons_append, List.cons_append, trimStart_cons hspace (isWhitespace_of_date ht),
                List.append_assoc]
              rfl
        rw [stripTimestamp_bare htrim long date closed, hrest]

/-- A token before a space has at least ten characters if the first ten of the text are of a date: the
space is none of them. -/
theorem date_of_take {token after : List Char}
    (hall : (((token ++ ' ' :: after).take 10).all fun c => c.isDigit || c == '-') = true) :
    10 ≤ token.length ∧ ∀ c ∈ token.take 10, c.isDigit ∨ c = '-' := by
  have hdate : ∀ c ∈ (token ++ ' ' :: after).take 10, c.isDigit ∨ c = '-' := by
    intro c hc
    simpa using List.all_eq_true.mp hall c hc
  have hlong : 10 ≤ token.length := by
    by_contra hshort
    have hmem : ' ' ∈ (token ++ ' ' :: after).take 10 := by
      rw [List.take_append, List.mem_append]
      right
      obtain ⟨k, hk⟩ : ∃ k, 10 - token.length = k + 1 := ⟨9 - token.length, by omega⟩
      rw [hk, List.take_succ_cons]
      exact List.mem_cons_self
    have hspace := hdate ' ' hmem
    revert hspace
    decide
  refine ⟨hlong, fun c hc => hdate c ?_⟩
  rwa [List.take_append_of_le_length hlong]

/-- What is dropped from a trimmed line: a token in brackets, a token that starts like a date, or
nothing. -/
theorem stripTimestamp_cases (line : List Char) :
    (∃ stamp after, Timestamp stamp ∧ trimStart line = stamp ++ after ∧
      stripTimestamp line = trimStart after) ∨ stripTimestamp line = trimStart line := by
  unfold stripTimestamp
  generalize trimStart line = trimmed
  simp only
  -- a stamp in brackets
  cases hbracket : stripPrefix "[" trimmed with
  | some rest =>
      obtain rfl := stripPrefix_eq_some.mp hbracket
      simp only
      cases hafter : afterChar ']' rest with
      | none => exact Or.inr rfl
      | some after =>
          obtain ⟨token, closed, rfl⟩ := afterChar_eq_some.mp hafter
          refine Or.inl ⟨'[' :: (token ++ [']']), after, .bracketed token closed, ?_, rfl⟩
          rw [List.cons_append, List.append_assoc]
          rfl
  | none =>
      simp only
      -- a bare one begins like a date
      cases hall : (trimmed.take 10).all fun c => c.isDigit || c == '-' with
      | false => exact Or.inr rfl
      | true =>
          rw [if_pos rfl]
          cases hafter : afterChar ' ' trimmed with
          | none => exact Or.inr rfl
          | some after =>
              obtain ⟨token, closed, rfl⟩ := afterChar_eq_some.mp hafter
              obtain ⟨long, date⟩ := date_of_take hall
              refine Or.inl ⟨token ++ [' '], after, .bare token long date closed, ?_, rfl⟩
              rw [List.append_assoc]
              rfl

/-- **What was dropped before the rest** is white space, a timestamp and white space. -/
theorem exists_timestamp (line : List Char) :
    ∃ space stamp space', line = space ++ (stamp ++ (space' ++ stripTimestamp line)) ∧
      (∀ c ∈ space, isWhitespace c = true) ∧ (stamp = [] ∨ Timestamp stamp) ∧
      ∀ c ∈ space', isWhitespace c = true := by
  obtain ⟨space, hline, hspace⟩ := exists_space line
  rcases stripTimestamp_cases line with ⟨stamp, after, hstamp, htrimmed, heq⟩ | heq
  · obtain ⟨space', hafter, hspace'⟩ := exists_space after
    refine ⟨space, stamp, space', ?_, hspace, Or.inr hstamp, hspace'⟩
    rw [heq, ← hafter, ← htrimmed]
    exact hline
  · refine ⟨space, [], [], ?_, hspace, Or.inl rfl, by simp⟩
    rw [heq]
    exact hline

/-- The prefix of a line is its time stamp and its level. -/
theorem stripLogPrefix_eq (line : String) :
    stripLogPrefix line = stripLevel (stripTimestamp line.toList) := rfl

/-- **The parser reads the grammar**: it gives an event exactly for the lines that carry it. -/
theorem parse_iff_grammar {line : String} {e : Ipc.Event} : parse line = some e ↔ Grammar line e := by
  rw [parse_eq_some_iff, stripLogPrefix_eq]
  constructor
  · intro h
    obtain ⟨level, hlevel, heq⟩ := exists_level (stripTimestamp line.toList)
    obtain ⟨space, stamp, space', hline, hspace, hstamp, hspace'⟩ := exists_timestamp line.toList
    rw [heq] at hline
    exact ⟨space, stamp, space', level, _, hline, hspace, hstamp, hspace', hlevel, h⟩
  · rintro ⟨space, stamp, space', level, body, hline, hspace, hstamp, hspace', hlevel, h⟩
    rw [hline, stripTimestamp_append hspace hstamp hspace' hlevel h.coreSignal,
      stripLevel_append hlevel h.coreSignal]
    exact h

/-- **The parser accepts exactly its grammar**, and no line carries two events. -/
theorem parse_exact (line : String) :
    (∀ e, parse line = some e ↔ Grammar line e) ∧
      ∀ e e', Grammar line e → Grammar line e' → e = e' := by
  refine ⟨fun e => parse_iff_grammar, ?_⟩
  intro e e' h h'
  exact Option.some.inj ((parse_iff_grammar.mpr h).symm.trans (parse_iff_grammar.mpr h'))

/-- A name may look like anything: here like a timestamp, a level and a word in another script. -/
example : parse "[a] [b] NOTE: client \"[x] 2026-05-19T1 NOTE: é\" has connected" = none ∧
    parse "2026-05-19T1 DEBUG1: client \"[x] 2026-05-19T1 NOTE: é\" has connected" =
      some (.peerConnected "[x] 2026-05-19T1 NOTE: é") := by
  decide

end LogParse

end Synbad
