import Synbad.Config.Layout
import Mathlib.Data.List.DropRight

/-! # The clipboard switch among the options

`generate_synergy_conf` writes a clipboard that is switched off as the first line of the options
section and the free-form options after it. Here the file is read the way a reader does for whom the
last setting of a key counts: a line with an `=` in it sets the trimmed text before it to the trimmed
text behind it, in a section of options.

No text elsewhere in the file can hide the options section from such a reader, whatever line breaks it
has, as a section begins at its own line; but an option can overrule the line before it. So the
settings of a whole file end with the clipboard's and then those of the options
(`exists_settings_eq`), and a clipboard that is switched off stays off exactly if the options, read by
themselves, leave it alone or switch it off again (`clipboard_stays_off_iff`). That includes options
whose key or value has a second line in it. -/

namespace Synbad

namespace SynergyConf

/-! ## A reader for whom the last setting counts -/

/-- A text without the blanks around it, at its beginning and at its end. -/
def trim (text : List Char) : List Char :=
  (text.dropWhile Char.isWhitespace).rdropWhile Char.isWhitespace

/-- What a line sets: the key before the first `=` and the value after it. -/
def setting (line : List Char) : Option (List Char × List Char) :=
  match line.dropWhile (· ≠ '=') with
  | [] => none
  | _ :: value => some (trim (line.takeWhile (· ≠ '=')), trim value)

/-- The section that the line after this one is in. -/
def nextSection : Option (List Char) → List Char → Option (List Char)
  | none, line => "section: ".toList.isPrefixOf? (trim line)
  | some name, line => if trim line = "end".toList then none else some name

/-- What the lines set in options sections, from some section on. -/
def settings : Option (List Char) → List (List Char) → List (List Char × List Char)
  | _, [] => []
  | sec, line :: rest =>
      (if sec = some "options".toList then (setting line).toList else []) ++
        settings (nextSection sec line) rest

/-- The value of a key: that of its last setting. -/
def lastSetting (key : List Char) (kvs : List (List Char × List Char)) : Option (List Char) :=
  kvs.reverse.lookup key

/-- The value that a whole file gives to a key. -/
def effective (text : String) (key : String) : Option (List Char) :=
  lastSetting key.toList (settings none (Lines.lines '\n' text.toList))

/-- What is set last counts, and what is set before only without it. -/
theorem lastSetting_append (key : List Char) (kvs more : List (List Char × List Char)) :
    lastSetting key (kvs ++ more) = (lastSetting key more).or (lastSetting key kvs) := by
  rw [lastSetting, List.reverse_append, List.lookup_append]
  rfl

/-- The settings of two runs of lines are those of the first and then those of the second, in the
section the first ends in. -/
theorem settings_append (sec : Option (List Char)) (ls ks : List (List Char)) :
    settings sec (ls ++ ks) = settings sec ls ++ settings (ls.foldl nextSection sec) ks := by
  induction ls generalizing sec with
  | nil => rfl
  | cons line ls ih => rw [List.cons_append, settings, settings, ih, List.append_assoc, List.foldl_cons]

/-- After an `end` no section is open, whatever has been read before. -/
theorem nextSection_end (sec : Option (List Char)) : nextSection sec "end".toList = none := by
  have hend : trim "end".toList = "end".toList := by decide
  cases sec with
  | none => decide
  | some name => rw [nextSection, if_pos hend]

/-- An `end` sets nothing, whichever section it ends. -/
theorem settings_end (sec : Option (List Char)) : settings sec ["end".toList] = [] := by
  have hnone : setting "end".toList = none := rfl
  rw [settings, settings, hnone]
  split <;> rfl

/-! ## Plain options -/

/-- Only blanks are trimmed: a character that is none is still there afterwards. -/
theorem mem_dropWhile {p : Char → Bool} {c : Char} {l : List Char} (hc : p c = false) (h : c ∈ l) :
    c ∈ l.dropWhile p := by
  have hsplit : c ∈ l.takeWhile p ++ l.dropWhile p := by rwa [List.takeWhile_append_dropWhile]
  rcases List.mem_append.mp hsplit with htake | hdrop
  · rw [List.mem_takeWhile_imp htake] at hc
    cases hc
  · exact hdrop

/-- Trimming takes off blanks only. -/
theorem mem_trim {c : Char} {l : List Char} (hc : c.isWhitespace = false) (h : c ∈ l) :
    c ∈ trim l := by
  rw [trim, List.rdropWhile, List.mem_reverse]
  exact mem_dropWhile hc (List.mem_reverse.mpr (mem_dropWhile hc h))

/-- A blank in front does not change what is left after trimming. -/
theorem trim_cons_blank {c : Char} (hc : c.isWhitespace = true) (l : List Char) :
    trim (c :: l) = trim l := by
  rw [trim, trim, List.dropWhile_cons_of_pos hc]

/-- A blank at the end does not change what is left after trimming. -/
theorem trim_append_blank {c : Char} (hc : c.isWhitespace = true) (l : List Char) :
    trim (l ++ [c]) = trim l := by
  rw [trim, trim, List.dropWhile_append]
  split
  · next hempty =>
    rw [List.isEmpty_iff.mp hempty, List.dropWhile_cons_of_pos hc, List.dropWhile_nil]
  · rw [List.rdropWhile_concat_pos _ _ _ hc]

/-- The line of an option is not the end of the section. -/
theorem trim_optionLine (kv : List Char × List Char) : trim (optionLine kv) ≠ "end".toList := by
  have heq : '=' ∈ trim (optionLine kv) := by
    refine mem_trim (by decide) ?_
    simp [optionLine]
  intro h
  rw [h] at heq
  revert heq
  decide

/-- The line of an option whose key has no `=` sets that key to that value. -/
theorem setting_optionLine {kv : List Char × List Char} (h : '=' ∉ kv.1) :
    setting (optionLine kv) = some (trim kv.1, trim kv.2) := by
  have hline : optionLine kv = ('\t' :: kv.1 ++ [' ']) ++ '=' :: ' ' :: kv.2 := by
    simp [optionLine]
  have hkey : ∀ c ∈ '\t' :: kv.1 ++ [' '], decide (c ≠ '=') = true := by
    intro c hc
    rw [decide_eq_true_eq]
    rintro rfl
    simp [h] at hc
  rw [setting, hline, List.dropWhile_append_of_pos hkey, List.takeWhile_append_of_pos hkey]
  rw [List.dropWhile_cons_of_neg (by decide), List.takeWhile_cons_of_neg (by decide)]
  rw [List.append_nil, trim_append_blank (by decide), trim_cons_blank (by decide)]
  simp only [trim_cons_blank (c := ' ') (by decide)]

/-- Options without line breaks and without `=` in their keys set what they say. -/
theorem settings_optionLines {kvs : List (List Char × List Char)}
    (h : ∀ kv ∈ kvs, '\n' ∉ kv.1 ∧ '\n' ∉ kv.2 ∧ '=' ∉ kv.1) :
    settings (some "options".toList) ((kvs.map optionLine).flatMap fun l =>
      Lines.lines '\n' (l ++ ['\n'])) = kvs.map fun kv => (trim kv.1, trim kv.2) := by
  induction kvs with
  | nil => rfl
  | cons kv kvs ih =>
      obtain ⟨hk, hv, heq⟩ := h kv List.mem_cons_self
      have hline : Lines.lines '\n' (optionLine kv ++ ['\n']) = [optionLine kv] := by
        refine Lines.lines_line ?_ []
        simp [optionLine, hk, hv]
      have hnext : nextSection (some "options".toList) (optionLine kv) = some "options".toList :=
        if_neg (trim_optionLine kv)
      rw [List.map_cons, List.flatMap_cons, hline, List.singleton_append, settings, hnext,
        ih fun kv hkv => h kv (List.mem_cons_of_mem _ hkv), setting_optionLine heq, if_pos rfl]
      rfl

end SynergyConf

/-! ## The generated file -/

namespace Config

open SynergyConf

/-- What the options of a document set when they are read by themselves, as lines of an options
section. -/
def optionSettings (c : Config) : List (List Char × List Char) :=
  settings (some "options".toList)
    ((c.optionTexts.map optionLine).flatMap fun l => Lines.lines '\n' (l ++ ['\n']))

/-- Before the options section comes a section that has ended. -/
theorem exists_confLines_eq {c : Config} (h : c.clipboardSharing = false) :
    ∃ front, c.confLines = front ++ ["end".toList, []] ++
      ("section: options".toList :: optionLine clipboardOff :: c.optionTexts.map optionLine ++
        ["end".toList]) := by
  have hoptions : c.optionLines = optionLine clipboardOff :: c.optionTexts.map optionLine := by
    rw [optionLines, writtenOptions, h]
    rfl
  have hends : ∀ (before : List (List Char)) (name : String) (body : List (List Char)),
      ∃ front, before ++ (sectionLines name body ++ [[]]) = front ++ ["end".toList, []] := by
    intro before name body
    refine ⟨before ++ ("section: ".toList ++ name.toList) :: body, ?_⟩
    simp [sectionLines]
  have hfront : ∃ front, [banner.toList, []] ++ (sectionLines "screens" c.screenLines ++ [[]]) ++
      (if c.aliasLines.isEmpty then [] else sectionLines "aliases" c.aliasLines ++ [[]]) ++
      (if c.linkLines.isEmpty then [] else sectionLines "links" c.linkLines ++ [[]]) =
        front ++ ["end".toList, []] := by
    -- the last section that is written is the one that has ended
    split
    · split
      · rw [List.append_nil, List.append_nil]
        exact hends _ _ _
      · exact hends _ _ _
    · split
      · rw [List.append_nil]
        exact hends _ _ _
      · exact hends _ _ _
  obtain ⟨front, hfront⟩ := hfront
  refine ⟨front, ?_⟩
  rw [confLines, hfront, hoptions]
  rfl

/-- **What a whole file sets**: something, then the clipboard to off, then what the options set. -/
theorem exists_settings_eq {c : Config} (h : c.clipboardSharing = false) :
    ∃ before, settings none (Lines.lines '\n' c.generateSynergyConf.toList) =
      before ++ clipboardOff :: c.optionSettings := by
  obtain ⟨front, hlines⟩ := exists_confLines_eq h
  have houtside : ∀ sec, (["end".toList, []].flatMap fun l =>
      Lines.lines '\n' (l ++ ['\n'])).foldl nextSection sec = none := by
    intro sec
    show nextSection (nextSection sec "end".toList) [] = none
    rw [nextSection_end]
    decide
  have hoptions : ∀ rest, settings none ("section: options".toList :: optionLine clipboardOff :: rest) =
      clipboardOff :: settings (some "options".toList) rest := by
    intro rest
    have hopen : nextSection none "section: options".toList = some "options".toList := by decide
    have hstay : nextSection (some "options".toList) (optionLine clipboardOff) =
        some "options".toList := by decide
    have hoff : setting (optionLine clipboardOff) = some clipboardOff := by decide
    rw [settings, settings, hopen, hstay, hoff, if_neg nofun, if_pos rfl]
    rfl
  rw [toList_generateSynergyConf, Lines.lines_unlines_flatMap, hlines, List.flatMap_append,
    List.flatMap_append, settings_append, List.foldl_append, houtside]
  refine ⟨_, congrArg _ ?_⟩
  -- the lines around the options have no line break and stay as they are
  show settings none ("section: options".toList :: optionLine clipboardOff ::
    ((c.optionTexts.map optionLine ++ ["end".toList]).flatMap fun l =>
      Lines.lines '\n' (l ++ ['\n']))) = _
  rw [hoptions, List.flatMap_append, settings_append]
  show clipboardOff :: (c.optionSettings ++ settings _ ["end".toList]) = _
  rw [settings_end, List.append_nil]

/-- The value of a key among options that set what they say. -/
theorem lookup_trim (key : List Char) (kvs : List (String × String)) :
    (kvs.map fun kv => (trim kv.1.toList, trim kv.2.toList)).lookup key =
      (kvs.find? fun kv => key == trim kv.1.toList).map fun kv => trim kv.2.toList := by
  induction kvs with
  | nil => rfl
  | cons kv kvs ih =>
      rw [List.map_cons, List.lookup_cons, List.find?_cons]
      cases key == trim kv.1.toList with
      | true => rfl
      | false => exact ih

/-- **When a clipboard that is switched off stays off.** A reader for whom the last setting of a key
counts finds it off exactly if the options, read by themselves, leave the switch alone or set it to
`false` in the end. For options without line breaks and without `=` in their keys that is: the last
one whose key is the switch, up to blanks, has the value `false`. -/
theorem clipboard_stays_off_iff {c : Config} (h : c.clipboardSharing = false) :
    (effective c.generateSynergyConf "clipboardSharing" = some "false".toList ↔
      ∀ value, lastSetting "clipboardSharing".toList c.optionSettings = some value →
        value = "false".toList) ∧
    ((∀ kv ∈ c.options.entries, '\n' ∉ kv.1.toList ∧ '\n' ∉ kv.2.toList ∧ '=' ∉ kv.1.toList) →
      (effective c.generateSynergyConf "clipboardSharing" = some "false".toList ↔
        ∀ kv, (c.options.entries.reverse.find? fun kv =>
            "clipboardSharing".toList == trim kv.1.toList) = some kv →
          trim kv.2.toList = "false".toList)) := by
  have hiff : effective c.generateSynergyConf "clipboardSharing" = some "false".toList ↔
      ∀ value, lastSetting "clipboardSharing".toList c.optionSettings = some value →
        value = "false".toList := by
    -- the line that switches it off comes first among the settings that matter, so any later one
    -- wins
    obtain ⟨before, hsettings⟩ := exists_settings_eq h
    have hoff : lastSetting "clipboardSharing".toList [clipboardOff] = some "false".toList := rfl
    rw [effective, hsettings, ← List.singleton_append, lastSetting_append, lastSetting_append, hoff]
    cases lastSetting "clipboardSharing".toList c.optionSettings with
    | none => simp
    | some value => simp
  refine ⟨hiff, fun hplain => ?_⟩
  -- without line breaks and equals signs each option is one setting
  have hplain : ∀ kv ∈ c.optionTexts, '\n' ∉ kv.1 ∧ '\n' ∉ kv.2 ∧ '=' ∉ kv.1 :=
    List.forall_mem_map.mpr hplain
  rw [hiff, optionSettings, settings_optionLines hplain, lastSetting, optionTexts, List.map_map,
    ← List.map_reverse]
  show (∀ value, ((c.options.entries.reverse.map fun kv =>
    (trim kv.1.toList, trim kv.2.toList)).lookup _ = some value → _)) ↔ _
  rw [lookup_trim]
  simp only [Option.map_eq_some_iff]
  constructor
  · exact fun hlast kv hkv => hlast _ ⟨kv, hkv, rfl⟩
  · rintro hlast value ⟨kv, hkv, rfl⟩
    exact hlast kv hkv

/-- The default document with the clipboard off and one option of another name. -/
def clipboardOffDefault : Config :=
  { Config.default with
    clipboardSharing := false
    options := ⟨[("heartbeat", "5000")], List.pairwise_singleton _ _⟩ }

/-- The default document with the clipboard off: the setting stays in effect. -/
theorem clipboard_stays_off_default :
    effective clipboardOffDefault.generateSynergyConf "clipboardSharing" = some "false".toList := by
  refine ((clipboard_stays_off_iff (c := clipboardOffDefault) rfl).2 ?_).mpr ?_
  · intro kv hkv
    rw [List.mem_singleton.mp hkv]
    decide
  · intro kv hkv
    cases hkv

/-- The default document with the clipboard off and an option that switches it on. -/
def clipboardOverruled : Config :=
  { Config.default with
    clipboardSharing := false
    options := ⟨[("clipboardSharing", "true")], List.pairwise_singleton _ _⟩ }

/-- The document is valid and says off; its file says on. -/
theorem clipboard_overruled :
    clipboardOverruled.Valid ∧ clipboardOverruled.clipboardSharing = false ∧
      effective clipboardOverruled.generateSynergyConf "clipboardSharing" = some "true".toList := by
  refine ⟨by decide, rfl, ?_⟩
  obtain ⟨before, hsettings⟩ := exists_settings_eq (c := clipboardOverruled) rfl
  have hon : lastSetting "clipboardSharing".toList clipboardOverruled.optionSettings =
      some "true".toList := by decide
  rw [effective, hsettings, ← List.singleton_append, lastSetting_append, lastSetting_append, hon]
  rfl

end Config

end Synbad
