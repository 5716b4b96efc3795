import TypedClient.Proofs.Named
import TypedClient.Proofs.Source.Verbatim
import TypedClient.Proofs.Store.Repetition

/-!
# Generating twice

Generating the files of a document once more should change nothing.  What is written is compared
with what is read, and reading turns carriage returns into line feeds; so a file is taken for up to
date exactly if the texts of the document that it is written with hold no carriage return.  The
second of two equal runs is quiet exactly if that is so for all files that the first one came to.

* `firstRun`, `secondRun`: what becomes of the files of a document when they are generated twice.
* `Quiet`: the second run tells of no file and changes none.
* `quiet_iff`: when it does.
* `not_quiet_return`: a document whose files are written again every time.
-/

namespace TypedClient.Generation

open Store (SameFiles Written noRefusals writeAll)
open Text (NoReturn)

variable {doc : Document} {settings : Settings} {s : Store} {directory : Path}

/-- The texts of the files that are generated for a document. -/
def texts (doc : Document) (settings : Settings) : Named String :=
  Source.filesOf (run doc settings).artifacts settings.clientName

/-- What becomes of the files of a document when they are generated. -/
def firstRun (doc : Document) (settings : Settings) (s : Store) (directory : Path) : Written :=
  writeAll noRefusals s directory (texts doc settings)

/-- What becomes of them when they are generated once more. -/
def secondRun (doc : Document) (settings : Settings) (s : Store) (directory : Path) : Written :=
  firstRun doc settings (firstRun doc settings s directory).store directory

/-- The second run tells of no file and changes none. -/
def Quiet (doc : Document) (settings : Settings) (s : Store) (directory : Path) : Prop :=
  (secondRun doc settings s directory).changed = [] ∧
    SameFiles (firstRun doc settings s directory).store (secondRun doc settings s directory).store

/-- The files that a run did not come to begin with the one at which it failed; there are none if it
did not fail. -/
def Missed (directory : Path) (rest : List Artifact) : Option (Path × Store.WriteFault) → Prop
  | none => rest = []
  | some (p, _) => ∃ failed later, rest = failed :: later ∧
    p = Store.targetPath directory failed.filename

/-- Files with different names are written under these, in order. -/
theorem texts_eq
    (hdistinct : ((run doc settings).artifacts.map fun a => s.place directory a.filename).Nodup) :
    texts doc settings = (run doc settings).artifacts.map fun a =>
      (a.filename, Source.artifactText a settings.clientName) := by
  refine Named.ofList_eq_self ?_
  have hnames : Named.names ((run doc settings).artifacts.map fun a =>
      (a.filename, Source.artifactText a settings.clientName)) =
        (run doc settings).artifacts.map Artifact.filename := by
    rw [Named.names, List.map_map]
    rfl
  rw [hnames]
  refine List.Nodup.of_map (s.place directory) ?_
  rw [List.map_map]
  exact hdistinct

/-- The text of a file is read as it is written exactly if the texts of the document that it is
written with have no carriage return. -/
theorem readLines?_artifactText_iff (artifact : Artifact) (className : String) :
    Text.readLines? (Text.encode (Source.artifactText artifact className)) =
        some (Source.artifactText artifact className) ↔
      ∀ text ∈ artifact.verbatim className, NoReturn text := by
  rw [← Source.noReturn_artifactText_iff]
  exact ⟨Text.notMem_of_readLines?, Text.readLines?_encode⟩

/-- If the files of a document are different ones, its second run is quiet exactly if no text of the
document that the files are written with, up to the one at which the first run failed, has a
carriage return.  A file without one is read as it is written, and no other file is. -/
theorem quiet_iff
    (hdistinct : ((run doc settings).artifacts.map fun a => s.place directory a.filename).Nodup) :
    (∃ done rest, (run doc settings).artifacts = done ++ rest ∧
      Missed directory rest (firstRun doc settings s directory).fault ∧
      (Quiet doc settings s directory ↔
        ∀ a ∈ done, ∀ text ∈ a.verbatim settings.clientName, NoReturn text)) ∧
    ∀ a ∈ (run doc settings).artifacts,
      Text.readLines? (Text.encode (Source.artifactText a settings.clientName)) =
          some (Source.artifactText a settings.clientName) ↔
        ∀ text ∈ a.verbatim settings.clientName, NoReturn text := by
  have htexts := texts_eq hdistinct
  have hplaces : ((texts doc settings).map fun f => s.place directory f.1).Nodup := by
    rw [htexts, List.map_map]
    exact hdistinct
  obtain ⟨doneFiles, restFiles, hfiles, hremains, hquiet⟩ :=
    Store.writeAll_twice s directory (texts doc settings) hplaces
  rw [htexts] at hfiles
  obtain ⟨done, rest, hartifacts, rfl, rfl⟩ := List.map_eq_append_iff.mp hfiles
  refine ⟨⟨done, rest, hartifacts, ?_, hquiet.trans ?_⟩,
    fun a _ => readLines?_artifactText_iff a settings.clientName⟩
  · change Store.Remains directory _ (firstRun doc settings s directory).fault at hremains
    cases hfault : (firstRun doc settings s directory).fault with
    | none =>
      rw [hfault] at hremains
      exact List.map_eq_nil_iff.mp hremains
    | some stop =>
      rw [hfault] at hremains
      obtain ⟨f, more, hrest, hp⟩ := hremains
      obtain ⟨failed, later, hsplit, rfl, -⟩ := List.map_eq_cons_iff.mp hrest
      exact ⟨failed, later, hsplit, hp⟩
  · rw [List.forall_mem_map]
    exact forall₂_congr fun a _ => Source.noReturn_artifactText_iff a settings.clientName

/-- A document with one enumeration, of one word. -/
def levels (word : String) : Document where
  openapiVersion := "3.0.0"
  info := {}
  schemas := [("Level", .primitive .string none [.text word] false)]
  operations := []
  notes := []

/-- The second run for an ordinary word is quiet. -/
theorem quiet_levels :
    ((run (levels "low") {}).artifacts.map fun a =>
      (Store.empty ["home"]).place ⟨"", []⟩ a.filename).Nodup ∧
    Quiet (levels "low") {} (Store.empty ["home"]) ⟨"", []⟩ := by
  have hdistinct : ((run (levels "low") {}).artifacts.map fun a =>
      (Store.empty ["home"]).place ⟨"", []⟩ a.filename).Nodup := by decide +kernel
  obtain ⟨⟨done, rest, hartifacts, -, hquiet⟩, -⟩ := quiet_iff hdistinct
  refine ⟨hdistinct, hquiet.mpr fun a ha => ?_⟩
  have hall : ∀ a ∈ (run (levels "low") {}).artifacts, ∀ text ∈ a.verbatim "ApiClient",
      NoReturn text := by decide +kernel
  refine hall a ?_
  rw [hartifacts]
  exact List.mem_append_left _ ha

/-- A word with a carriage return in it is written again every time. -/
theorem not_quiet_return :
    ((run (levels "low\r") {}).artifacts.map fun a =>
      (Store.empty ["home"]).place ⟨"", []⟩ a.filename).Nodup ∧
    (firstRun (levels "low\r") {} (Store.empty ["home"]) ⟨"", []⟩).fault = none ∧
    ¬ Quiet (levels "low\r") {} (Store.empty ["home"]) ⟨"", []⟩ := by
  refine ⟨by decide +kernel, by decide +kernel, fun h => ?_⟩
  exact absurd h.1 (by decide +kernel)

end TypedClient.Generation
