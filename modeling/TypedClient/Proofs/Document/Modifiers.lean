import TypedClient.Document
import TypedClient.Proofs.Mapping.Fields
import TypedClient.Proofs.Mapping.Pruning

/-!
# When views can be left out

Whether types are seen through views is decided once for a document, by a search through its schemas
that is separate from mapping.  The search goes wherever mapping goes, so it finds a property of one
direction if and only if there is one that a view could hide.  If it finds none, every view leaves
the schemas as they are, and no type has a property to mark.

* `Document.Carries`: the schemas of a document that are searched.
* `usesModifiers_iff`: what the search finds.
* `map_eq_of_not_hasModifier`: without properties of one direction all views give the same.
* `not_flagged_of_not_hasModifier`: and no property of the type belongs to one direction.
* `usesModifiers_agrees`: the search decides what mapping would show.
-/

namespace TypedClient

open Mapping (map)
open TypeExpr (HasField)

/-! ## The search -/

namespace Document

variable {doc : Document}

/-- The schema is a named one of the document, or that of a media type in a request body or in a
response. -/
inductive Carries (doc : Document) : Schema → Prop
  | named {name : String} {s : Schema} (h : (name, s) ∈ doc.schemas) : Carries doc s
  | body {op : Operation} {body : RequestBody} {media : Media} {s : Schema}
      (hop : op ∈ doc.operations) (hbody : op.requestBody = some body)
      (hmedia : media ∈ body.content) (hs : media.schema = some s) : Carries doc s
  | response {op : Operation} {response : Response} {media : Media} {s : Schema}
      (hop : op ∈ doc.operations) (hresponse : response ∈ op.responses)
      (hmedia : media ∈ response.content) (hs : media.schema = some s) : Carries doc s

theorem contentHasModifier_iff {content : List Media} :
    contentHasModifier content = true ↔
      ∃ media ∈ content, ∃ s, media.schema = some s ∧ s.hasModifier = true := by
  rw [contentHasModifier, List.any_eq_true]
  refine exists_congr fun media => and_congr_right fun _ => ?_
  cases media.schema with
  | none => simp
  | some s => simp

/-- The search goes to the schemas that the document carries. -/
theorem usesModifiers_eq_true_iff :
    doc.usesModifiers = true ↔ ∃ s, doc.Carries s ∧ s.hasModifier = true := by
  rw [usesModifiers, Bool.or_eq_true, List.any_eq_true, List.any_eq_true]
  constructor
  · rintro (⟨⟨name, s⟩, hs, hmodifier⟩ | ⟨op, hop, hmodifier⟩)
    · exact ⟨s, .named hs, hmodifier⟩
    · rw [Bool.or_eq_true, List.any_eq_true] at hmodifier
      rcases hmodifier with hmodifier | ⟨response, hresponse, hmodifier⟩
      · cases hbody : op.requestBody with
        | none =>
          rw [hbody] at hmodifier
          cases hmodifier
        | some body =>
          rw [hbody] at hmodifier
          obtain ⟨media, hmedia, s, hs, hmodifier⟩ := contentHasModifier_iff.mp hmodifier
          exact ⟨s, .body hop hbody hmedia hs, hmodifier⟩
      · obtain ⟨media, hmedia, s, hs, hmodifier⟩ := contentHasModifier_iff.mp hmodifier
        exact ⟨s, .response hop hresponse hmedia hs, hmodifier⟩
  · rintro ⟨s, hcarries, hmodifier⟩
    cases hcarries with
    | named hs => exact Or.inl ⟨_, hs, hmodifier⟩
    | @body op _ media _ hop hbody hmedia hs =>
      refine Or.inr ⟨op, hop, Bool.or_eq_true_iff.mpr (Or.inl ?_)⟩
      rw [hbody]
      exact contentHasModifier_iff.mpr ⟨media, hmedia, s, hs, hmodifier⟩
    | @response op response media _ hop hresponse hmedia hs =>
      refine Or.inr ⟨op, hop, Bool.or_eq_true_iff.mpr (Or.inr ?_)⟩
      exact List.any_eq_true.mpr
        ⟨response, hresponse, contentHasModifier_iff.mpr ⟨media, hmedia, s, hs, hmodifier⟩⟩

/-- The search finds a property of one direction exactly if a schema that the document carries has
one. -/
theorem usesModifiers_iff :
    doc.usesModifiers = true ↔ ∃ s, doc.Carries s ∧ ∃ p, s.HasProperty p ∧ p.2.IsDirected := by
  rw [usesModifiers_eq_true_iff]
  exact exists_congr fun s => and_congr_right fun _ => Schema.hasModifier_iff

/-- Where the search finds nothing, no schema that the document carries has such a property. -/
theorem Carries.hasModifier_eq_false {s : Schema} (hs : doc.Carries s)
    (h : doc.usesModifiers = false) : s.hasModifier = false := by
  refine Bool.eq_false_iff.mpr fun hmodifier => ?_
  have huses : doc.usesModifiers = true := usesModifiers_eq_true_iff.mpr ⟨s, hs, hmodifier⟩
  rw [h] at huses
  cases huses

end Document

/-! ## Mapping without such properties -/

namespace Mapping

variable {lib : Library} {ctx : Context} {location : String} {schema : Schema}

/-- All views give the same of a schema without properties of one direction. -/
theorem map_eq_of_not_hasModifier (hwraps : ctx.wrapViews = false)
    (h : schema.hasModifier = false) (view other : Option View) :
    map lib (ctx.through view) location schema = map lib (ctx.through other) location schema := by
  have hnone : ∀ seen : Option View,
      map lib (ctx.through seen) location schema = map lib (ctx.through none) location schema := by
    intro seen
    cases seen with
    | none => rfl
    | some view => rw [map_through hwraps, Schema.pruned_eq_self h]
  rw [hnone view, hnone other]

/-- The type of a schema without properties of one direction has none, and none that is marked. -/
theorem not_flagged_of_not_hasModifier (h : schema.hasModifier = false) {m : Mapped TypeExpr}
    (hmap : map lib ctx location schema = .ok m) {f : String × FieldOf TypeExpr}
    (hf : HasField f m.result) :
    f.2.isReadOnly = false ∧ f.2.isWriteOnly = false ∧ f.2.isMarked = false := by
  obtain ⟨p, hp, hmakes⟩ := exists_property_of_field schema hmap f hf
  have hdirected : ¬ p.2.IsDirected := by
    intro hdirected
    have hmodifier : schema.hasModifier = true := hp.hasModifier hdirected
    rw [h] at hmodifier
    cases hmodifier
  have hflags : p.2.readOnly = false ∧ p.2.writeOnly = false :=
    ⟨Bool.eq_false_iff.mpr fun hread => hdirected (Or.inl hread),
      Bool.eq_false_iff.mpr fun hwrite => hdirected (Or.inr hwrite)⟩
  rw [hmakes.isReadOnly, hmakes.isWriteOnly, hmakes.isMarked, hflags.1, hflags.2]
  exact ⟨rfl, rfl, Bool.and_false _⟩

end Mapping

namespace Document

/-- The search finds something exactly if a schema that the document carries has a property of one
direction, without following references.  If it finds nothing, whatever such a schema maps to
through one view, or through none, it maps to through all of them, in a context that wraps no views,
and no property in the type is read-only, write-only or marked. -/
theorem usesModifiers_agrees (doc : Document) :
    (doc.usesModifiers = true ↔ ∃ s, doc.Carries s ∧ ∃ p, s.HasProperty p ∧ p.2.IsDirected) ∧
    (doc.usesModifiers = false → ∀ s, doc.Carries s →
      ∀ (lib : Library) (ctx : Mapping.Context) (location : String) (view : Option View)
        (m : Mapping.Mapped TypeExpr), ctx.wrapViews = false →
        map lib (ctx.through view) location s = .ok m →
          (∀ other, map lib (ctx.through other) location s = .ok m) ∧
          ∀ f, HasField f m.result →
            f.2.isReadOnly = false ∧ f.2.isWriteOnly = false ∧ f.2.isMarked = false) := by
  refine ⟨usesModifiers_iff, fun hnone s hs lib ctx location view m hwraps hmap => ?_⟩
  have hmodifier : s.hasModifier = false := hs.hasModifier_eq_false hnone
  refine ⟨fun other => ?_, fun f hf => Mapping.not_flagged_of_not_hasModifier hmodifier hmap hf⟩
  rw [← hmap]
  exact Mapping.map_eq_of_not_hasModifier hwraps hmodifier other view

/-- A page with a text, and with further pages under any names. -/
def page : Schema :=
  .object [("text", ⟨.primitive .string none [] false, true, false, false⟩)]
    (.schema (.reference "Page" false)) false

/-- A document of pages. -/
def booklet : Document := ⟨"3.0.3", {}, [("Page", page)], [], []⟩

/-- The type of a page. -/
def pageType : TypeExpr :=
  .object [("text", ⟨.primitive .string, false, false, false, false⟩)]
    (some (.named "Page" "" none false))

/-- Nothing is found in the document of pages, and a page has one type, whichever the view. -/
theorem usesModifiers_agrees_booklet :
    booklet.usesModifiers = false ∧ booklet.Carries page ∧
      map ⟨booklet.schemas⟩ (({} : Mapping.Context).through none) "" page =
        .ok ⟨pageType, ["Page"], []⟩ ∧
      map ⟨booklet.schemas⟩ (({} : Mapping.Context).through (some .input)) "" page =
        .ok ⟨pageType, ["Page"], []⟩ ∧
      ∀ f, HasField f pageType →
        f.2.isReadOnly = false ∧ f.2.isWriteOnly = false ∧ f.2.isMarked = false := by
  have hnone : booklet.usesModifiers = false := rfl
  have hcarries : booklet.Carries page := .named List.mem_cons_self
  have hends : Library.Ends ⟨booklet.schemas⟩ (.reference "Page" false) page :=
    ⟨.single ⟨"Page", false, rfl, rfl⟩, rfl⟩
  have htypeName : Library.typeName ⟨booklet.schemas⟩ "Page" = "Page" := by decide +kernel
  have hmap : map ⟨booklet.schemas⟩ (({} : Mapping.Context).through none) "" page =
      .ok ⟨pageType, ["Page"], []⟩ := by
    simp only [page, map, Mapping.mapProperties, Mapping.mapAdditional, Mapping.drops_through_none,
      Mapping.mapReference, Library.resolve_eq_ok_iff.mpr hends, htypeName]
    rfl
  obtain ⟨hviews, hflags⟩ := (usesModifiers_agrees booklet).2 hnone page hcarries
    ⟨booklet.schemas⟩ {} "" none _ rfl hmap
  exact ⟨hnone, hcarries, hmap, hviews (some .input), hflags⟩

end Document

end TypedClient
