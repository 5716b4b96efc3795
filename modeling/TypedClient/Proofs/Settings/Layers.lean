import Mathlib.Data.List.Basic
import Mathlib.Data.List.TakeWhile
import TypedClient.Proofs.Outcome
import TypedClient.Settings.Layers

/-!
# What the layers give

Every layer of the settings should be checked, and each option should have the value of the highest
layer that sets it.  The second is so.  But the values of the project file are checked only after
the higher layers have been put over them, so that one which does not fit is not noticed if it is
overridden.  And a file that is not UTF-8, or holds a numeral that is too long, ends the run in
another way.

* `Key`: the options, with the values that fit them; `ofEntries?_eq_some_iff`.
* `inEffect`: the value of the highest layer that sets an option; `lookup?_layered`.
* `SaysFlag`, `EnvironmentSets`, `ProjectSets`: what the environment and the project file set.
* `Invalid`: a layer holds something that does not fit.
* `AsDocumented`, `asDocumented_iff`: what should become of the layers, and when it does.
* `not_asDocumented_overridden`: a value that does not fit and is overridden.
-/

namespace TypedClient.Settings

open Value (lookup?)

variable {entries project : Entries} {settings : Settings} {set : Overrides} {flags : Flags}
  {environment : Environment} {s : Store} {asked : Option String}

/-! ## Options -/

/-- An option that a layer may set. -/
inductive Key where
  | removesTag
  | modifiers
  | typeNamespace
  | clientName
  | definitionsFile
  | clientFile
deriving Repr, DecidableEq

namespace Key

/-- The name of an option in the project file. -/
def name : Key → String
  | .removesTag => "remove_tag_from_operation_id"
  | .modifiers => "add_readonly_writeonly_modifiers"
  | .typeNamespace => "type_namespace"
  | .clientName => "client_name"
  | .definitionsFile => "definitions_filename"
  | .clientFile => "api_filename"

/-- The value that an option takes for one that is given, if that fits. -/
def fitted? : Key → Value → Option Value
  | .removesTag, v => v.flag?.map .bool
  | .modifiers, v => if v.isNull then some .null else v.flag?.map .bool
  | .typeNamespace, v => if v.isNull then some .null else v.text?.map .text
  | .clientName, v => v.text?.map .text
  | .definitionsFile, v => v.text?.map .text
  | .clientFile, v => v.text?.map .text

/-- The value of an option. -/
def valueIn (settings : Settings) : Key → Value
  | .removesTag => .bool settings.removesTag
  | .modifiers => (settings.modifiers.map .bool).getD .null
  | .typeNamespace => (settings.typeNamespace.map .text).getD .null
  | .clientName => .text settings.clientName
  | .definitionsFile => .text settings.definitionsFile
  | .clientFile => .text settings.clientFile

/-- The value of an option that no layer sets. -/
def fallback (k : Key) : Value := k.valueIn {}

/-- Every fallback fits. -/
theorem fitted?_fallback (k : Key) : k.fitted? k.fallback = some k.fallback := by
  cases k <;> rfl

end Key

theorem flagAt?_eq_some_iff {b fallback : Bool} {key : String} :
    (Value.map entries).flagAt? key fallback = some b ↔
      Key.fitted? .removesTag ((lookup? key entries).getD (.bool fallback)) = some (.bool b) := by
  rw [Value.flagAt?, Value.get?, Key.fitted?]
  cases lookup? key entries <;> simp [Value.flag?]

theorem textAt?_eq_some_iff {text fallback key : String} :
    (Value.map entries).textAt? key fallback = some text ↔
      Key.fitted? .clientName ((lookup? key entries).getD (.text fallback)) =
        some (.text text) := by
  rw [Value.textAt?, Value.get?, Key.fitted?]
  cases lookup? key entries <;> simp [Value.text?]

theorem optionalFlagAt?_eq_some_iff {o : Option Bool} {key : String} :
    optionalFlagAt? (.map entries) key = some o ↔
      Key.fitted? .modifiers ((lookup? key entries).getD .null) =
        some ((o.map Value.bool).getD .null) := by
  rw [optionalFlagAt?, Value.get?]
  cases lookup? key entries with
  | none => cases o <;> simp [Key.fitted?, Value.isNull]
  | some v => cases v <;> cases o <;> simp [Key.fitted?, Value.isNull]

theorem optionalTextAt?_eq_some_iff {o : Option String} {key : String} :
    (Value.map entries).optionalTextAt? key = some o ↔
      Key.fitted? .typeNamespace ((lookup? key entries).getD .null) =
        some ((o.map Value.text).getD .null) := by
  rw [Value.optionalTextAt?, Value.get?]
  cases lookup? key entries with
  | none => cases o <;> simp [Key.fitted?, Value.isNull]
  | some v => cases v <;> cases o <;> simp [Key.fitted?, Value.isNull, Value.text?]

/-- Entries give settings exactly if the value of each option, or else its fallback, fits, and then
it is the option's value. -/
theorem ofEntries?_eq_some_iff : ofEntries? entries = some settings ↔
    ∀ k : Key, k.fitted? ((lookup? k.name entries).getD k.fallback) =
      some (k.valueIn settings) := by
  simp only [ofEntries?, Option.bind_eq_bind, Option.bind_eq_some_iff, Option.pure_def,
    Option.some_inj]
  constructor
  · rintro ⟨removesTag, hremoves, modifiers, hmodifiers, space, hspace, client, hclient,
      definitions, hdefinitions, file, hfile, rfl⟩ k
    cases k with
    | removesTag => exact flagAt?_eq_some_iff.mp hremoves
    | modifiers => exact optionalFlagAt?_eq_some_iff.mp hmodifiers
    | typeNamespace => exact optionalTextAt?_eq_some_iff.mp hspace
    | clientName => exact textAt?_eq_some_iff.mp hclient
    | definitionsFile => exact textAt?_eq_some_iff.mp hdefinitions
    | clientFile => exact textAt?_eq_some_iff.mp hfile
  · intro h
    exact ⟨_, flagAt?_eq_some_iff.mpr (h .removesTag),
      _, optionalFlagAt?_eq_some_iff.mpr (h .modifiers),
      _, optionalTextAt?_eq_some_iff.mpr (h .typeNamespace),
      _, textAt?_eq_some_iff.mpr (h .clientName),
      _, textAt?_eq_some_iff.mpr (h .definitionsFile),
      _, textAt?_eq_some_iff.mpr (h .clientFile), rfl⟩

/-- Values that fit are those of some settings. -/
theorem exists_settings {given : Key → Value}
    (h : ∀ k : Key, ∃ v, k.fitted? (given k) = some v) :
    ∃ settings, ∀ k : Key, k.fitted? (given k) = some (k.valueIn settings) := by
  have hflag : ∀ {v w : Value}, Key.fitted? .modifiers v = some w →
      ∃ o : Option Bool, w = (o.map Value.bool).getD .null := by
    intro v w hfits
    rw [Key.fitted?] at hfits
    split at hfits
    · exact ⟨none, (Option.some_inj.mp hfits).symm⟩
    · obtain ⟨b, -, rfl⟩ := Option.map_eq_some_iff.mp hfits
      exact ⟨some b, rfl⟩
  have htext : ∀ {v w : Value}, Key.fitted? .typeNamespace v = some w →
      ∃ o : Option String, w = (o.map Value.text).getD .null := by
    intro v w hfits
    rw [Key.fitted?] at hfits
    split at hfits
    · exact ⟨none, (Option.some_inj.mp hfits).symm⟩
    · obtain ⟨text, -, rfl⟩ := Option.map_eq_some_iff.mp hfits
      exact ⟨some text, rfl⟩
  obtain ⟨_, hremoves⟩ := h .removesTag
  obtain ⟨_, hmodifiers⟩ := h .modifiers
  obtain ⟨_, hspace⟩ := h .typeNamespace
  obtain ⟨_, hclient⟩ := h .clientName
  obtain ⟨_, hdefinitions⟩ := h .definitionsFile
  obtain ⟨_, hfile⟩ := h .clientFile
  obtain ⟨removesTag, -, rfl⟩ := Option.map_eq_some_iff.mp hremoves
  obtain ⟨modifiers, rfl⟩ := hflag hmodifiers
  obtain ⟨space, rfl⟩ := htext hspace
  obtain ⟨client, -, rfl⟩ := Option.map_eq_some_iff.mp hclient
  obtain ⟨definitions, -, rfl⟩ := Option.map_eq_some_iff.mp hdefinitions
  obtain ⟨file, -, rfl⟩ := Option.map_eq_some_iff.mp hfile
  refine ⟨⟨removesTag, modifiers, space, client, definitions, file⟩, fun k => ?_⟩
  cases k <;> assumption

/-! ## The layers -/

/-- The value of an option that the command line sets. -/
def Flags.sets (flags : Flags) : Key → Option Value
  | .removesTag => flags.removesTag.map .bool
  | .modifiers => flags.modifiers.map .bool
  | .typeNamespace => flags.typeNamespace.map namespaceValue
  | _ => none

/-- The value of an option that the environment sets. -/
def Overrides.sets (set : Overrides) : Key → Option Value
  | .removesTag => set.removesTag.map .bool
  | .modifiers => set.modifiers.map .bool
  | .typeNamespace => set.typeNamespace.map .text
  | _ => none

/-- The value of the highest layer that sets an option. -/
def inEffect (project : Entries) (set : Overrides) (flags : Flags) (k : Key) : Value :=
  ((flags.sets k).or ((set.sets k).or (lookup? k.name project))).getD k.fallback

theorem lookup?_override (key written : String) (value : Option Value) (entries : Entries) :
    lookup? key (override written value entries) =
      if key = written then value.or (lookup? key entries) else lookup? key entries := by
  cases value with
  | none => rw [override, Option.none_or, ite_self]
  | some v =>
    rw [override, Option.some_or]
    split_ifs with h
    · rw [h, Value.lookup?_put_self]
    · exact Value.lookup?_put_of_ne h v entries

/-- A higher layer overrides a lower one. -/
theorem lookup?_layered (project : Entries) (set : Overrides) (flags : Flags) (k : Key) :
    lookup? k.name (layered project set flags) =
      (flags.sets k).or ((set.sets k).or (lookup? k.name project)) := by
  simp only [layered, lookup?_override]
  cases k <;> simp [Key.name, Flags.sets, Overrides.sets]

/-- What the command line sets fits. -/
theorem exists_fitted_of_flags {k : Key} {v : Value} (h : flags.sets k = some v) :
    ∃ w, k.fitted? v = some w := by
  cases k with
  | removesTag =>
    obtain ⟨b, -, rfl⟩ := Option.map_eq_some_iff.mp h
    exact ⟨_, rfl⟩
  | modifiers =>
    obtain ⟨b, -, rfl⟩ := Option.map_eq_some_iff.mp h
    exact ⟨_, rfl⟩
  | typeNamespace =>
    obtain ⟨space, -, rfl⟩ := Option.map_eq_some_iff.mp h
    rw [namespaceValue]
    split <;> exact ⟨_, rfl⟩
  | _ => cases h

/-- What the environment sets fits. -/
theorem exists_fitted_of_set {k : Key} {v : Value} (h : set.sets k = some v) :
    ∃ w, k.fitted? v = some w := by
  cases k with
  | removesTag =>
    obtain ⟨b, -, rfl⟩ := Option.map_eq_some_iff.mp h
    exact ⟨_, rfl⟩
  | modifiers =>
    obtain ⟨b, -, rfl⟩ := Option.map_eq_some_iff.mp h
    exact ⟨_, rfl⟩
  | typeNamespace =>
    obtain ⟨space, -, rfl⟩ := Option.map_eq_some_iff.mp h
    exact ⟨_, rfl⟩
  | _ => cases h

/-- The project file sets an option to a value that does not fit. -/
def Misfits (project : Entries) (k : Key) : Prop :=
  ∃ v, lookup? k.name project = some v ∧ k.fitted? v = none

/-- The value in effect does not fit exactly if it is one of the project file that does not. -/
theorem fitted?_inEffect_eq_none_iff (project : Entries) (set : Overrides) (flags : Flags)
    (k : Key) : k.fitted? (inEffect project set flags k) = none ↔
      Misfits project k ∧ flags.sets k = none ∧ set.sets k = none := by
  rw [inEffect, Misfits]
  cases hflags : flags.sets k with
  | some v =>
    obtain ⟨w, hw⟩ := exists_fitted_of_flags hflags
    simp [hw]
  | none =>
    cases hset : set.sets k with
    | some v =>
      obtain ⟨w, hw⟩ := exists_fitted_of_set hset
      simp [hw]
    | none =>
      cases hproject : lookup? k.name project with
      | some v => simp
      | none => simp [k.fitted?_fallback]

/-! ## The environment -/

/-- A flag's variable in lower case without the white space around it. -/
def flagWord (given : String) : String :=
  String.ofList (Text.lower (Text.trim given.toList))

/-- What a variable says of a flag: unset or blank it says nothing, nor does the word `auto` where
that is allowed; there are four words for yes and four for no. -/
inductive SaysFlag (environment : Environment) (variableName : String) (allowsAuto : Bool) :
    Option Bool → Prop
  | unset (h : environment.lookup variableName = none) :
      SaysFlag environment variableName allowsAuto none
  | blank {given : String} (h : environment.lookup variableName = some given)
      (hblank : ∀ c ∈ given.toList, Text.isBlank c = true) :
      SaysFlag environment variableName allowsAuto none
  | auto {given : String} (h : environment.lookup variableName = some given)
      (hallowed : allowsAuto = true) (hword : flagWord given = "auto") :
      SaysFlag environment variableName allowsAuto none
  | yes {given : String} (h : environment.lookup variableName = some given)
      (hword : flagWord given ∈ ["1", "true", "yes", "on"]) :
      SaysFlag environment variableName allowsAuto (some true)
  | no {given : String} (h : environment.lookup variableName = some given)
      (hword : flagWord given ∈ ["0", "false", "no", "off"]) :
      SaysFlag environment variableName allowsAuto (some false)

theorem trim_eq_nil_iff {s : List Char} :
    Text.trim s = [] ↔ ∀ c ∈ s, Text.isBlank c = true := by
  rw [Text.trim, Text.dropEndWhile, List.reverse_eq_nil_iff, List.dropWhile_eq_nil_iff]
  simp only [List.mem_reverse]
  constructor
  · intro h c hc
    rw [← List.takeWhile_append_dropWhile (p := Text.isBlank) (l := s), List.mem_append] at hc
    rcases hc with hc | hc
    · exact List.mem_takeWhile_imp hc
    · exact h c hc
  · exact fun h c hc => h c ((List.dropWhile_suffix _).subset hc)

theorem lower_eq_nil_iff {s : List Char} : Text.lower s = [] ↔ s = [] := by
  cases s with
  | nil => simp
  | cons c rest =>
    rw [Text.lower_cons, Text.lowerChar]
    split <;> simp

/-- A flag's word is empty exactly if its variable is blank. -/
theorem flagWord_eq_empty_iff {given : String} :
    flagWord given = "" ↔ ∀ c ∈ given.toList, Text.isBlank c = true := by
  rw [flagWord, ← String.toList_inj, String.toList_ofList, String.toList_empty, lower_eq_nil_iff,
    trim_eq_nil_iff]

theorem flagOf_of_lookup {variableName given : String} {allowsAuto : Bool}
    (h : environment.lookup variableName = some given) :
    flagOf environment variableName allowsAuto =
      if flagWord given = "" then .ok none
      else if flagWord given ∈ ["1", "true", "yes", "on"] then .ok (some true)
      else if flagWord given ∈ ["0", "false", "no", "off"] then .ok (some false)
      else if allowsAuto = true ∧ flagWord given = "auto" then .ok none
      else .error (.flag variableName given
        (if allowsAuto then "true/false/auto" else "true/false")) := by
  simp only [flagOf, flagWord, h, String.isEmpty_iff, List.contains_iff_mem, Bool.and_eq_true,
    beq_iff_eq]
  congr

/-- A flag is taken for what its variable says. -/
theorem flagOf_eq_ok_iff {variableName : String} {allowsAuto : Bool} {flag : Option Bool} :
    flagOf environment variableName allowsAuto = .ok flag ↔
      SaysFlag environment variableName allowsAuto flag := by
  constructor
  · intro h
    cases hlookup : environment.lookup variableName with
    | none =>
      rw [flagOf, hlookup] at h
      obtain rfl := Except.ok.inj h
      exact .unset hlookup
    | some given =>
      rw [flagOf_of_lookup hlookup] at h
      split_ifs at h with hempty hyes hno hauto
      · obtain rfl := Except.ok.inj h
        exact .blank hlookup (flagWord_eq_empty_iff.mp hempty)
      · obtain rfl := Except.ok.inj h
        exact .yes hlookup hyes
      · obtain rfl := Except.ok.inj h
        exact .no hlookup hno
      · obtain rfl := Except.ok.inj h
        exact .auto hlookup hauto.1 hauto.2
  · intro h
    cases h with
    | unset h => rw [flagOf, h]
    | blank h hblank => rw [flagOf_of_lookup h, if_pos (flagWord_eq_empty_iff.mpr hblank)]
    | auto h hallowed hword =>
      rw [flagOf_of_lookup h, hword, if_neg (by decide), if_neg (by decide), if_neg (by decide),
        if_pos ⟨hallowed, rfl⟩]
    | yes h hword =>
      have hne : flagWord _ ≠ "" := fun hempty => by
        rw [hempty] at hword
        exact absurd hword (by decide)
      rw [flagOf_of_lookup h, if_neg hne, if_pos hword]
    | no h hword =>
      have hdisjoint : ∀ word ∈ ["0", "false", "no", "off"],
          word ≠ "" ∧ word ∉ ["1", "true", "yes", "on"] := by decide
      rw [flagOf_of_lookup h, if_neg (hdisjoint _ hword).1, if_neg (hdisjoint _ hword).2,
        if_pos hword]

/-- What the environment sets: what the variables say of the flags, and a namespace that is not
empty. -/
structure EnvironmentSets (environment : Environment) (set : Overrides) : Prop where
  removesTag : SaysFlag environment removesTagVariable false set.removesTag
  modifiers : SaysFlag environment modifiersVariable true set.modifiers
  typeNamespace : ∀ space, set.typeNamespace = some space ↔
    environment.lookup typeNamespaceVariable = some space ∧ space ≠ ""

theorem namespaceOf_eq_some_iff {space : String} : namespaceOf environment = some space ↔
    environment.lookup typeNamespaceVariable = some space ∧ space ≠ "" := by
  rw [namespaceOf, Option.filter_eq_some_iff, Bool.not_eq_true', Bool.eq_false_iff, ne_eq,
    String.isEmpty_iff]

theorem environmentOverrides_eq_ok_iff :
    environmentOverrides environment = .ok set ↔ EnvironmentSets environment set := by
  rw [environmentOverrides, Outcome.bind_eq_ok_iff]
  constructor
  · rintro ⟨removesTag, hremoves, h⟩
    obtain ⟨modifiers, hmodifiers, h⟩ := Outcome.bind_eq_ok_iff.mp h
    obtain rfl := Except.ok.inj h
    exact ⟨flagOf_eq_ok_iff.mp hremoves, flagOf_eq_ok_iff.mp hmodifiers,
      fun _ => namespaceOf_eq_some_iff⟩
  · intro h
    refine ⟨_, flagOf_eq_ok_iff.mpr h.removesTag, Outcome.bind_eq_ok_iff.mpr
      ⟨_, flagOf_eq_ok_iff.mpr h.modifiers, ?_⟩⟩
    have hspace : namespaceOf environment = set.typeNamespace :=
      Option.ext fun space => namespaceOf_eq_some_iff.trans (h.typeNamespace space).symm
    rw [hspace]
    rfl

/-- The environment sets one thing only. -/
theorem EnvironmentSets.unique {other : Overrides} (h : EnvironmentSets environment set)
    (hother : EnvironmentSets environment other) : other = set :=
  Except.ok.inj ((environmentOverrides_eq_ok_iff.mpr hother).symm.trans
    (environmentOverrides_eq_ok_iff.mpr h))

/-! ## The project file -/

/-- Where the project file lies: where it is asked for, or under its own name in the working
directory. -/
def projectPath (s : Store) : Option String → Path
  | some given => Path.ofText given
  | none => s.herePath.join ⟨"", [projectFileName]⟩

/-- What the project file sets: the entries of the map that it writes, or nothing if it was not
asked for and is not there. -/
inductive ProjectSets (s : Store) (asked : Option String) : Entries → Prop
  | absent (hasked : asked = none) (h : s.fileAt? (projectPath s none) = none) :
      ProjectSets s asked []
  | file {data : ByteArray} {text : String} {entries : Entries}
      (h : s.fileAt? (projectPath s asked) = some data) (htext : Text.readLines? data = some text)
      (hread : Json.read text = .ok (.map entries)) : ProjectSets s asked entries

/-- The project file cannot be used: it is asked for and not there, is not UTF-8, is not JSON, or
writes something else than a map. -/
inductive BadFile (s : Store) (asked : Option String) : Prop
  | missing {given : String} (hasked : asked = some given)
      (h : s.fileAt? (projectPath s asked) = none)
  | undecodable {data : ByteArray} (h : s.fileAt? (projectPath s asked) = some data)
      (htext : Text.readLines? data = none)
  | notJson {data : ByteArray} {text : String} {failure : Json.Failure}
      (h : s.fileAt? (projectPath s asked) = some data) (htext : Text.readLines? data = some text)
      (hread : Json.read text = .error failure)
  | notMap {data : ByteArray} {text : String} {v : Value}
      (h : s.fileAt? (projectPath s asked) = some data) (htext : Text.readLines? data = some text)
      (hread : Json.read text = .ok v) (hmap : ∀ entries, v ≠ .map entries)

/-- The project file is UTF-8 and holds no numeral that is too long. -/
def Legible (s : Store) (asked : Option String) : Prop :=
  ∀ data, s.fileAt? (projectPath s asked) = some data →
    ∃ text, Text.readLines? data = some text ∧ Json.read text ≠ .error .longNumeral

theorem projectEntries_of_file {data : ByteArray}
    (h : s.fileAt? (projectPath s asked) = some data) :
    projectEntries s asked = entriesOfFile (projectPath s asked).text data := by
  cases asked with
  | none =>
    change s.fileAt? (s.herePath.join ⟨"", [projectFileName]⟩) = some data at h
    simp only [projectEntries, h]
    rfl
  | some given =>
    change s.fileAt? (Path.ofText given) = some data at h
    simp only [projectEntries, h]
    rfl

theorem projectEntries_of_missing (h : s.fileAt? (projectPath s asked) = none) :
    projectEntries s asked =
      match asked with
      | none => .ok []
      | some given => .error (.wrong (.missingFile (Path.ofText given).text)) := by
  cases asked with
  | none =>
    change s.fileAt? (s.herePath.join ⟨"", [projectFileName]⟩) = none at h
    simp only [projectEntries, h]
  | some given =>
    change s.fileAt? (Path.ofText given) = none at h
    simp only [projectEntries, h]

/-- What becomes of a project file that is there: it sets something, or it cannot be used, and then
it is told what is wrong with it exactly if it is legible. -/
theorem projectEntries_cases_of_file {data : ByteArray}
    (h : s.fileAt? (projectPath s asked) = some data) :
    (∃ project, projectEntries s asked = .ok project ∧ ProjectSets s asked project ∧
      Legible s asked) ∨
    ∃ failure, projectEntries s asked = .error failure ∧ BadFile s asked ∧
      ((∃ e, failure = .wrong e) ↔ Legible s asked) := by
  have hlegible (hread : ∃ text, Text.readLines? data = some text ∧
      Json.read text ≠ .error .longNumeral) : Legible s asked := by
    intro other hother
    rw [h] at hother
    rwa [← Option.some_inj.mp hother]
  rw [projectEntries_of_file h, entriesOfFile]
  cases htext : Text.readLines? data with
  | none =>
    refine Or.inr ⟨.undecodable, rfl, .undecodable h htext, iff_of_false ?_ fun hlegible => ?_⟩
    · rintro ⟨e, ⟨⟩⟩
    · obtain ⟨text, hsome, -⟩ := hlegible data h
      rw [htext] at hsome
      cases hsome
  | some text =>
    cases hread : Json.read text with
    | error failure =>
      cases failure with
      | longNumeral =>
        refine Or.inr ⟨.longNumeral, by simp only [hread], .notJson h htext hread,
          iff_of_false ?_ fun hlegible => ?_⟩
        · rintro ⟨e, ⟨⟩⟩
        · obtain ⟨other, hother, hshort⟩ := hlegible data h
          rw [htext] at hother
          exact hshort (Option.some_inj.mp hother ▸ hread)
      | fault fault position =>
        refine Or.inr ⟨.wrong (.notJson _ _), by simp only [hread]; rfl, .notJson h htext hread,
          iff_of_true ⟨_, rfl⟩ (hlegible ⟨text, htext, ?_⟩)⟩
        rw [hread]
        rintro ⟨⟩
    | ok v =>
      have hshort : Legible s asked := hlegible ⟨text, htext, by rw [hread]; rintro ⟨⟩⟩
      cases v with
      | map entries => exact Or.inl ⟨entries, by simp only [hread], .file h htext hread, hshort⟩
      | _ =>
        exact Or.inr ⟨.wrong (.notMap _), by simp only [hread]; rfl,
          .notMap h htext hread (by rintro entries ⟨⟩),
          iff_of_true ⟨_, rfl⟩ hshort⟩

/-- What becomes of the project file, also if it is not there. -/
theorem projectEntries_cases (s : Store) (asked : Option String) :
    (∃ project, projectEntries s asked = .ok project ∧ ProjectSets s asked project ∧
      Legible s asked) ∨
    ∃ failure, projectEntries s asked = .error failure ∧ BadFile s asked ∧
      ((∃ e, failure = .wrong e) ↔ Legible s asked) := by
  cases hfile : s.fileAt? (projectPath s asked) with
  | some data => exact projectEntries_cases_of_file hfile
  | none =>
    have hlegible : Legible s asked := fun data hdata => by
      rw [hfile] at hdata
      cases hdata
    have hentries := projectEntries_of_missing hfile
    cases asked with
    | none => exact Or.inl ⟨[], hentries, .absent rfl hfile, hlegible⟩
    | some given =>
      exact Or.inr ⟨_, hentries, .missing rfl hfile, iff_of_true ⟨_, rfl⟩ hlegible⟩

theorem projectEntries_of_sets (h : ProjectSets s asked project) :
    projectEntries s asked = .ok project := by
  cases h with
  | absent hasked hfile =>
    subst hasked
    exact projectEntries_of_missing hfile
  | file hfile htext hread =>
    rw [projectEntries_of_file hfile, entriesOfFile, htext]
    simp only [hread]

/-- A project file sets one thing only. -/
theorem ProjectSets.unique {other : Entries} (h : ProjectSets s asked project)
    (hother : ProjectSets s asked other) : other = project :=
  Except.ok.inj ((projectEntries_of_sets hother).symm.trans (projectEntries_of_sets h))

theorem exists_error_of_badFile (h : BadFile s asked) :
    ∃ failure, projectEntries s asked = .error failure := by
  cases h with
  | @missing given hasked hfile =>
    subst hasked
    exact ⟨_, projectEntries_of_missing hfile⟩
  | undecodable hfile htext =>
    rw [projectEntries_of_file hfile, entriesOfFile, htext]
    exact ⟨_, rfl⟩
  | @notJson data text failure hfile htext hread =>
    rw [projectEntries_of_file hfile, entriesOfFile, htext]
    simp only [hread]
    cases failure <;> exact ⟨_, rfl⟩
  | @notMap data text v hfile htext hread hmap =>
    rw [projectEntries_of_file hfile, entriesOfFile, htext]
    simp only [hread]
    cases v with
    | map entries => exact absurd rfl (hmap entries)
    | _ => exact ⟨_, rfl⟩

/-! ## All layers -/

/-- A variable for a flag holds none of the words for one. -/
def BadFlag (environment : Environment) : Prop :=
  ∃ source ∈ [(removesTagVariable, false), (modifiersVariable, true)],
    ∀ flag, ¬ SaysFlag environment source.1 source.2 flag

/-- A layer holds something that does not fit. -/
inductive Invalid (s : Store) (asked : Option String) (environment : Environment) : Prop
  | badFile (h : BadFile s asked)
  | misfit {project : Entries} {k : Key} (h : ProjectSets s asked project)
      (hmisfits : Misfits project k)
  | badFlag (h : BadFlag environment)

theorem environmentOverrides_cases (environment : Environment) :
    (∃ set, environmentOverrides environment = .ok set ∧ EnvironmentSets environment set) ∨
    ∃ e, environmentOverrides environment = .error e ∧ BadFlag environment := by
  have hbad {variableName : String} {allowsAuto : Bool} {e : LayerError}
      (h : flagOf environment variableName allowsAuto = .error e) :
      ∀ flag, ¬ SaysFlag environment variableName allowsAuto flag := fun flag hsays => by
    rw [flagOf_eq_ok_iff.mpr hsays] at h
    cases h
  rcases Outcome.ok_or_error (environmentOverrides environment) with ⟨set, h⟩ | ⟨e, h⟩
  · exact Or.inl ⟨set, h, environmentOverrides_eq_ok_iff.mp h⟩
  · refine Or.inr ⟨e, h, ?_⟩
    rw [environmentOverrides, Outcome.bind_eq_error_iff] at h
    rcases h with hremoves | ⟨removesTag, -, h⟩
    · exact ⟨_, List.mem_cons_self, hbad hremoves⟩
    · rcases Outcome.bind_eq_error_iff.mp h with hmodifiers | ⟨modifiers, -, hpure⟩
      · exact ⟨_, List.mem_cons_of_mem _ List.mem_cons_self, hbad hmodifiers⟩
      · cases hpure

theorem EnvironmentSets.not_badFlag (h : EnvironmentSets environment set) :
    ¬ BadFlag environment := by
  rintro ⟨source, hmem, hnone⟩
  rcases List.mem_pair.mp hmem with rfl | rfl
  · exact hnone _ h.removesTag
  · exact hnone _ h.modifiers

/-- What should become of the layers: if one of them holds something that does not fit, they are
refused with an account of it; else there are settings, and each option has the value of the highest
layer that sets it. -/
structure AsDocumented (s : Store) (asked : Option String) (environment : Environment)
    (flags : Flags) (outcome : Except LayerFailure Settings) : Prop where
  refused : Invalid s asked environment → ∃ e, outcome = .error (.wrong e)
  accepted : ¬ Invalid s asked environment → ∃ settings project set, outcome = .ok settings ∧
    ProjectSets s asked project ∧ EnvironmentSets environment set ∧
    ∀ k : Key, k.fitted? (inEffect project set flags k) = some (k.valueIn settings)

theorem resolve_eq_ofEntries? (hproject : ProjectSets s asked project)
    (hset : EnvironmentSets environment set) :
    resolve s asked environment flags =
      match ofEntries? (layered project set flags) with
      | some settings => .ok settings
      | none => .error (.wrong .unfit) := by
  rw [resolve, projectEntries_of_sets hproject, environmentOverrides_eq_ok_iff.mpr hset]
  rfl

/-- The settings are those that are in effect, if they all fit. -/
theorem resolve_of_sets (hproject : ProjectSets s asked project)
    (hset : EnvironmentSets environment set) :
    (∃ settings, resolve s asked environment flags = .ok settings ∧
      ∀ k : Key, k.fitted? (inEffect project set flags k) = some (k.valueIn settings)) ∨
    resolve s asked environment flags = .error (.wrong .unfit) ∧
      ∃ k, Misfits project k ∧ flags.sets k = none ∧ set.sets k = none := by
  have heffect (k : Key) : (lookup? k.name (layered project set flags)).getD k.fallback =
      inEffect project set flags k := by rw [lookup?_layered, inEffect]
  rw [resolve_eq_ofEntries? hproject hset]
  by_cases hfits : ∃ k : Key, k.fitted? (inEffect project set flags k) = none
  · obtain ⟨k, hk⟩ := hfits
    have hnone : ofEntries? (layered project set flags) = none := by
      rw [Option.eq_none_iff_forall_ne_some]
      intro settings hsome
      have hfitted := ofEntries?_eq_some_iff.mp hsome k
      rw [heffect, hk] at hfitted
      cases hfitted
    rw [hnone]
    exact Or.inr ⟨rfl, k, (fitted?_inEffect_eq_none_iff project set flags k).mp hk⟩
  · obtain ⟨settings, hsettings⟩ := exists_settings fun k =>
      Option.ne_none_iff_exists'.mp fun hk => hfits ⟨k, hk⟩
    have hsome : ofEntries? (layered project set flags) = some settings :=
      ofEntries?_eq_some_iff.mpr fun k => by rw [heffect, hsettings k]
    rw [hsome]
    exact Or.inl ⟨settings, rfl, hsettings⟩

/-- If the settings do not fit, the project file holds a value that does not. -/
theorem exists_misfits_of_unfit (hproject : ProjectSets s asked project)
    (hset : EnvironmentSets environment set)
    (h : resolve s asked environment flags = .error (.wrong .unfit)) : ∃ k, Misfits project k := by
  rcases resolve_of_sets hproject hset with ⟨settings, hok, -⟩ | ⟨-, k, hmisfits, -⟩
  · rw [h] at hok
    cases hok
  · exact ⟨k, hmisfits⟩

theorem resolve_of_file_error {failure : LayerFailure}
    (h : projectEntries s asked = .error failure) :
    resolve s asked environment flags = .error failure := by
  rw [resolve, h]
  rfl

theorem resolve_of_environment_error {e : LayerError} (hproject : ProjectSets s asked project)
    (h : environmentOverrides environment = .error e) :
    resolve s asked environment flags = .error (.wrong e) := by
  rw [resolve, projectEntries_of_sets hproject, h]
  rfl

/-- If the environment and the project file both set something, the layers are invalid exactly if a
value of the project file does not fit. -/
theorem invalid_iff_of_sets (hproject : ProjectSets s asked project)
    (hset : EnvironmentSets environment set) :
    Invalid s asked environment ↔ ∃ k, Misfits project k := by
  refine ⟨fun h => ?_, fun ⟨k, hmisfits⟩ => .misfit hproject hmisfits⟩
  cases h with
  | badFile hbad =>
    obtain ⟨failure, hfailure⟩ := exists_error_of_badFile hbad
    rw [projectEntries_of_sets hproject] at hfailure
    cases hfailure
  | misfit hother hmisfits =>
    rw [hproject.unique hother] at hmisfits
    exact ⟨_, hmisfits⟩
  | badFlag hbad => exact absurd hbad hset.not_badFlag

/-- If the environment and the project file both set something, it becomes of the layers what should
exactly if one of the values of the project file that do not fit is in effect, or there is none. -/
theorem asDocumented_iff_of_sets (hproject : ProjectSets s asked project)
    (hset : EnvironmentSets environment set) :
    AsDocumented s asked environment flags (resolve s asked environment flags) ↔
      ((∃ k, Misfits project k) →
        ∃ k, Misfits project k ∧ flags.sets k = none ∧ set.sets k = none) := by
  have hinvalid := invalid_iff_of_sets hproject hset
  rcases resolve_of_sets hproject hset with ⟨settings, hresolve, hsettings⟩ |
    ⟨hresolve, k, hmisfits, hfree⟩
  · rw [hresolve]
    constructor
    · intro h hmisfits
      obtain ⟨e, he⟩ := h.refused (hinvalid.mpr hmisfits)
      cases he
    · intro hfree
      have hvalid : ¬ Invalid s asked environment := by
        intro h
        obtain ⟨k, hk⟩ := hfree (hinvalid.mp h)
        have hnone := (fitted?_inEffect_eq_none_iff project set flags k).mpr hk
        rw [hsettings k] at hnone
        cases hnone
      exact ⟨fun h => absurd h hvalid,
        fun _ => ⟨settings, project, set, rfl, hproject, hset, hsettings⟩⟩
  · rw [hresolve]
    refine iff_of_true ⟨fun _ => ⟨_, rfl⟩, fun hvalid => ?_⟩ fun _ => ⟨k, hmisfits, hfree⟩
    exact absurd (hinvalid.mpr ⟨k, hmisfits⟩) hvalid

/-- It becomes of the layers what should exactly if the project file is legible, and it is not so
that all its values that do not fit are overridden by higher layers. -/
theorem asDocumented_iff (s : Store) (asked : Option String) (environment : Environment)
    (flags : Flags) :
    AsDocumented s asked environment flags (resolve s asked environment flags) ↔
      Legible s asked ∧ ∀ project set, ProjectSets s asked project →
        EnvironmentSets environment set → (∃ k, Misfits project k) →
          ∃ k, Misfits project k ∧ flags.sets k = none ∧ set.sets k = none := by
  rcases projectEntries_cases s asked with ⟨project, -, hproject, hlegible⟩ |
    ⟨failure, hfailure, hbad, hwrong⟩
  · rcases environmentOverrides_cases environment with ⟨set, -, hset⟩ | ⟨e, he, hbad⟩
    · rw [asDocumented_iff_of_sets hproject hset]
      constructor
      · refine fun h => ⟨hlegible, fun other otherSet hother hotherSet hmisfits => ?_⟩
        rw [hproject.unique hother] at hmisfits ⊢
        rw [hset.unique hotherSet]
        exact h hmisfits
      · exact fun h => h.2 project set hproject hset
    · rw [resolve_of_environment_error hproject he]
      exact iff_of_true ⟨fun _ => ⟨e, rfl⟩, fun hvalid => absurd (.badFlag hbad) hvalid⟩
        ⟨hlegible, fun _ _ _ hset => absurd hbad hset.not_badFlag⟩
  · rw [resolve_of_file_error hfailure]
    constructor
    · intro h
      obtain ⟨e, he⟩ := h.refused (.badFile hbad)
      refine ⟨hwrong.mp ⟨e, Except.error.inj he⟩, fun other _ hother => ?_⟩
      rw [projectEntries_of_sets hother] at hfailure
      cases hfailure
    · rintro ⟨hlegible, -⟩
      obtain ⟨e, rfl⟩ := hwrong.mpr hlegible
      exact ⟨fun _ => ⟨e, rfl⟩, fun hvalid => absurd (.badFile hbad) hvalid⟩

/-- A project file that gives a flag a word which is none. -/
def undecidedText : String := "\x7b\"remove_tag_from_operation_id\": \"sometimes\"\x7d"

/-- A working directory with that project file. -/
def undecided : Store :=
  (Store.empty ["home"]).put ["home", projectFileName] (.file (Text.encode undecidedText))

/-- The word is refused by itself, but it is not noticed if the command line decides. -/
theorem not_asDocumented_overridden :
    ¬ AsDocumented undecided none [] { removesTag := some true }
      (resolve undecided none [] { removesTag := some true }) := by
  intro h
  have hresolve : resolve undecided none [] { removesTag := some true } =
      .ok { removesTag := true } := by decide +kernel
  have hrefused : resolve undecided none [] {} = .error (.wrong .unfit) := by decide +kernel
  have hset : EnvironmentSets [] ⟨none, none, none⟩ := environmentOverrides_eq_ok_iff.mp rfl
  rcases projectEntries_cases undecided none with ⟨project, -, hproject, -⟩ | ⟨failure, hfailure, -⟩
  · obtain ⟨k, hmisfits⟩ := exists_misfits_of_unfit hproject hset hrefused
    obtain ⟨e, he⟩ := h.refused (.misfit hproject hmisfits)
    rw [hresolve] at he
    cases he
  · rw [resolve_of_file_error hfailure] at hresolve
    cases hresolve

end TypedClient.Settings
