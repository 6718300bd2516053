import Synbad.Config.Core
import Mathlib.Data.List.Basic

/-! # What the Core consumes, and what is compared

`core_inputs_differ` decides whether an edit bounces the Core. It compares whole documents, a few
fields blanked out (`coreInputsDiffer_eq_false_iff`). The Core itself only gets the two generated
files, the override of its binary and its command line, each made from some of the fields. So equal
comparisons mean equal outputs (`sameOutputs_of_not_differ`), but not the other way round: fields of a
screen that no output shows are compared too, its position on the canvas and its monitors.

How far the comparison goes beyond the outputs is said exactly by `SameOutputs.not_differ_iff`: of two
documents that give the Core the same, it says which fields have to agree besides for them to compare
as equal. For that the other fields, the role, the name and the port, have to be recovered from the
generated texts; they stand in the settings file behind markers, the last of which can be found
whatever the texts in front of it are. -/

namespace Synbad

/-! ## A text after its last marker -/

/-- What follows the last marker, and what precedes it. -/
theorem append_cons_inj_of_not_mem_right {α : Type*} {x y ds es : List α} {m : α} (hds : m ∉ ds)
    (hes : m ∉ es) (h : x ++ m :: ds = y ++ m :: es) : x = y ∧ ds = es := by
  obtain ⟨k, hy, hk⟩ | ⟨k, hx, hk⟩ := List.append_eq_append_iff.mp h
  · cases k with
    | nil => exact ⟨by rw [hy, List.append_nil], (List.cons.inj hk).2⟩
    | cons c k =>
        refine absurd ?_ hds
        rw [(List.cons.inj hk).2]
        exact List.mem_append_right k List.mem_cons_self
  · cases k with
    | nil => exact ⟨by rw [hx, List.append_nil], (List.cons.inj hk).2.symm⟩
    | cons c k =>
        refine absurd ?_ hes
        rw [(List.cons.inj hk).2]
        exact List.mem_append_right k List.mem_cons_self

/-- A number is written in digits, so a character that is no digit does not occur in it. -/
theorem not_mem_toString {c : Char} (hc : c.isDigit = false) (n : ℕ) : c ∉ (toString n).toList := by
  rw [Nat.toString_eq_repr, Nat.toList_repr]
  intro h
  rw [Nat.isDigit_of_mem_toDigits (by decide) (by decide) h] at hc
  cases hc

/-- Different numbers are written differently. -/
theorem toString_nat_injective {m n : ℕ} (h : toString m = toString n) : m = n := by
  have hread := congrArg (fun s => Nat.ofDigitChars 10 s.toList 0) h
  simpa only [Nat.toString_eq_repr, Nat.toList_repr, Nat.ofDigitChars_ten_toDigits] using hread

/-! ## The outputs -/

namespace Config

/-- **The Core gets the same** from two documents: both generated files wherever they are written,
the override of the binary, and the command line of every release. -/
structure SameOutputs (a b : Config) : Prop where
  conf : a.generateSynergyConf = b.generateSynergyConf
  settings : ∀ confPath, a.generateDeskflowSettings confPath = b.generateDeskflowSettings confPath
  core : a.binaries.eq b.binaries = true
  command : ∀ resolved confPath settingsPath,
    buildCommand resolved a confPath settingsPath = buildCommand resolved b confPath settingsPath

variable {a b : Config}

/-- **What is compared**: every field but the daemon's ports, the autostart switch and audio. -/
theorem coreInputsDiffer_eq_false_iff :
    a.coreInputsDiffer b = false ↔ a.role = b.role ∧ a.serverName = b.serverName ∧
      a.serverAddress = b.serverAddress ∧ a.port = b.port ∧ a.screens = b.screens ∧
      a.links = b.links ∧ a.options = b.options ∧ a.clipboardSharing = b.clipboardSharing ∧
      a.binaries.eq b.binaries = true := by
  have haudio : AudioConfig.default.eq AudioConfig.default = true := by decide
  rw [coreInputsDiffer, Bool.not_eq_false', eq]
  simp only [Bool.and_eq_true, beq_iff_eq, decide_eq_true_eq]
  simp only [coreView, haudio]
  tauto

/-- The layout file is made of the screens, the links, the options and the clipboard switch. -/
theorem generateSynergyConf_congr (hs : a.screens = b.screens) (hl : a.links = b.links)
    (ho : a.options = b.options) (hc : a.clipboardSharing = b.clipboardSharing) :
    a.generateSynergyConf = b.generateSynergyConf := by
  simp only [generateSynergyConf, hs, hl, ho, hc]

/-- The address dialled is made of the address and the port. -/
theorem remoteAddress_congr (ha : a.serverAddress = b.serverAddress) (hp : a.port = b.port) :
    a.remoteAddress = b.remoteAddress := by
  simp only [remoteAddress, ha, hp]

/-- **Equal comparisons mean equal outputs**: if the comparison finds no difference, the Core gets the
same from both documents. -/
theorem sameOutputs_of_not_differ (h : a.coreInputsDiffer b = false) : SameOutputs a b := by
  obtain ⟨hr, hn, ha, hp, hs, hl, ho, hc, hcore⟩ := coreInputsDiffer_eq_false_iff.mp h
  have haddr := remoteAddress_congr ha hp
  refine ⟨generateSynergyConf_congr hs hl ho hc, fun confPath => ?_, hcore, fun resolved _ _ => ?_⟩
  · simp only [generateDeskflowSettings, hr, hn, hp, haddr]
  · simp only [buildCommand, hr, hn, hp, haddr]

/-! ## What the outputs show -/

/-- The role is the first argument of a unified binary. -/
theorem SameOutputs.role_eq (h : SameOutputs a b) : a.role = b.role := by
  have hcommand := h.command ⟨.unified ⟨""⟩⟩ ⟨""⟩ ⟨""⟩
  cases ha : a.role <;> cases hb : b.role <;> simp [buildCommand, ha, hb] at hcommand ⊢

/-- A client's address is the last argument of a separate client binary. -/
theorem SameOutputs.remoteAddress_eq (h : SameOutputs a b) (hrole : a.role = .client) :
    a.remoteAddress = b.remoteAddress := by
  have hcommand := h.command ⟨.splitLegacy ⟨""⟩ ⟨""⟩⟩ ⟨""⟩ ⟨""⟩
  cases ha : a.remoteAddress <;> cases hb : b.remoteAddress <;>
    simp [buildCommand, hrole, ← h.role_eq, ha, hb] at hcommand ⊢
  exact hcommand.2

/-- The settings file up to the machine's name, which depends on the role alone. -/
def settingsHead (role : NodeRole) : String :=
  writeln "; Generated by Synbad. DO NOT EDIT — regenerated from config.toml." ++ writeln "" ++
    writeln "[core]" ++
    writeln ("coreMode=" ++ match role with
      | .client => "1"
      | .server => "2") ++
    "computerName="

/-- The settings file after the port: what the role needs, the address of the server or the path of
the layout file. -/
def settingsTail (c : Config) (confPath : PathBuf) : String :=
  writeln "" ++ writeln "processMode=1" ++ writeln "" ++
    match c.role with
    | .client => writeln "[client]" ++
        ((c.remoteAddress.map fun addr => writeln ("remoteHost=" ++ addr)).getD "")
    | .server =>
        writeln "[server]" ++ writeln "externalConfig=true" ++
          writeln ("externalConfigFile=" ++ confPath.text)

/-- The settings file around the name and the port. -/
theorem generateDeskflowSettings_eq (c : Config) (confPath : PathBuf) :
    c.generateDeskflowSettings confPath =
      settingsHead c.role ++ (c.serverName ++ "\nport" ++ "=" ++ toString c.port ++
        c.settingsTail confPath) := by
  apply String.toList_injective
  cases hrole : c.role with
  | client =>
      simp [generateDeskflowSettings, settingsHead, settingsTail, hrole, writeln]
  | server =>
      simp [generateDeskflowSettings, settingsHead, settingsTail, hrole, writeln]

/-- Name and port can be read off the settings. -/
theorem SameOutputs.name_port_eq (h : SameOutputs a b) :
    a.serverName = b.serverName ∧ a.port = b.port := by
  have htail : a.settingsTail ⟨""⟩ = b.settingsTail ⟨""⟩ := by
    cases hrole : a.role with
    | server => simp only [settingsTail, ← h.role_eq, hrole]
    | client => simp only [settingsTail, ← h.role_eq, hrole, h.remoteAddress_eq hrole]
  have htext := congrArg String.toList (h.settings ⟨""⟩)
  rw [generateDeskflowSettings_eq, generateDeskflowSettings_eq, h.role_eq, htail] at htext
  simp only [String.toList_append] at htext
  have hline := List.append_cancel_right (List.append_cancel_left htext)
  rw [List.append_assoc, List.append_assoc _ "=".toList] at hline
  obtain ⟨hname, hport⟩ := append_cons_inj_of_not_mem_right
    (not_mem_toString (c := '=') (by decide) a.port) (not_mem_toString (by decide) b.port) hline
  exact ⟨String.toList_injective (List.append_cancel_right hname),
    toString_nat_injective (String.toList_injective hport)⟩

/-- **When the comparison agrees with the outputs.** Documents that give the Core the same compare as
equal exactly if they have the same screens, with their positions and monitors, the same links, in the
same order and written the same way round, the same options, the same clipboard switch and the same
server address. -/
theorem SameOutputs.not_differ_iff (h : SameOutputs a b) :
    a.coreInputsDiffer b = false ↔ a.serverAddress = b.serverAddress ∧ a.screens = b.screens ∧
      a.links = b.links ∧ a.options = b.options ∧ a.clipboardSharing = b.clipboardSharing := by
  obtain ⟨hname, hport⟩ := h.name_port_eq
  rw [coreInputsDiffer_eq_false_iff]
  constructor
  · rintro ⟨-, -, ha, -, hs, hl, ho, hc, -⟩
    exact ⟨ha, hs, hl, ho, hc⟩
  · rintro ⟨ha, hs, hl, ho, hc⟩
    exact ⟨h.role_eq, hname, ha, hport, hs, hl, ho, hc, h.core⟩

end Config

end Synbad
