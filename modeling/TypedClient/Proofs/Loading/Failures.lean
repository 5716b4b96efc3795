import TypedClient.Loading.Document
import TypedClient.Proofs.Document.Faults

/-!
# How loading ends

Loading a document should end with the document or with an account of what is wrong with its
source, its text or its version.  It ends otherwise in two ways.  A decoder gives up on a scalar of
the text: the JSON decoder on a numeral that is too long, the YAML decoder on a scalar that looks
like a number or a date and is none.  Or the text is decoded, and a value stands in it that does not
fit its place.

The digits of numerals are limited where they are read (`Text.numeralLimit`).  A limit on the digits
that are printed is left out of this account: a whole number with more of them than can be read, as a
hexadecimal scalar of YAML may give, is displayed like any other (`Value.display`), so that it fits
every place where a value is displayed.

* `GivesUp`: a decoder gives up on a scalar of a text.
* `accounted_decode_iff`: otherwise decoding gives a map or an account.
* `Unaccounted`: one of the two ways.
* `endsAsDocumented_iff`: loading ends as it should exactly if it does not end in one of them.
* `not_endsAsDocumented_tagged`: it does not always.
-/

namespace TypedClient.Loading

/-! ## Decoding -/

/-- Decoding gives a map or an account of what is wrong with the text. -/
def Accounted (decoded : Except DecodeFailure Value) : Prop :=
  (∃ v, decoded = .ok v) ∨ ∃ e, decoded = .error (.wrong e)

/-- Is the text read as YAML?  It is if it is known to be YAML, or if nothing is known of it and it
is not JSON. -/
def TriesYaml (known : Option Format) (text : String) : Prop :=
  known = some .yaml ∨
    known = none ∧ ∃ fault position, Json.read text = .error (.fault fault position)

/-- A decoder gives up on a scalar of the text: the one for JSON on a numeral with too many digits,
the one for YAML on a scalar without a value. -/
def GivesUp (known : Option Format) (text : String) : Prop :=
  known ≠ some .yaml ∧ Json.read text = .error .longNumeral ∨
    TriesYaml known text ∧ ∃ fault, fault ≠ .malformed ∧ Yaml.read text = .error fault

theorem accounted_requireMap (v : Value) : Accounted (requireMap v) := by
  cases v with
  | map entries => exact Or.inl ⟨_, rfl⟩
  | _ => exact Or.inr ⟨_, rfl⟩

theorem accounted_decodeYaml_iff {detail : Option String} {text : String} :
    Accounted (decodeYaml detail text) ↔
      ¬ ∃ fault, fault ≠ .malformed ∧ Yaml.read text = .error fault := by
  rw [decodeYaml.eq_def]
  split
  · rename_i v hread
    refine iff_of_true (accounted_requireMap v) ?_
    rintro ⟨fault, -, h⟩
    rw [hread] at h
    cases h
  · rename_i hread
    refine iff_of_true (Or.inr ⟨_, rfl⟩) ?_
    rintro ⟨fault, hfault, h⟩
    exact hfault (Except.error.inj (h.symm.trans hread))
  · rename_i fault hother hread
    refine iff_of_false ?_ (not_not_intro ⟨fault, hother, hread⟩)
    rintro (⟨v, h⟩ | ⟨e, h⟩) <;> cases h

/-- A text that is tried as YAML gives up where the YAML decoder does. -/
theorem givesUp_iff_of_triesYaml {known : Option Format} {text : String}
    (htries : TriesYaml known text) :
    GivesUp known text ↔ ∃ fault, fault ≠ .malformed ∧ Yaml.read text = .error fault := by
  constructor
  · rintro (⟨hknown, hjson⟩ | ⟨-, hyaml⟩)
    · rcases htries with hknown' | ⟨-, fault, position, hjson'⟩
      · exact absurd hknown' hknown
      · cases hjson.symm.trans hjson'
    · exact hyaml
  · exact fun hyaml => Or.inr ⟨htries, hyaml⟩

/-- Decoding gives a map or an account exactly if no decoder gives up on a scalar. -/
theorem accounted_decode_iff (known : Option Format) (text : String) :
    Accounted (decode known text) ↔ ¬ GivesUp known text := by
  by_cases hyaml : known = some .yaml
  · rw [decode, if_pos hyaml, accounted_decodeYaml_iff, givesUp_iff_of_triesYaml (Or.inl hyaml)]
  rw [decode, if_neg hyaml]
  -- the text is tried as JSON, and the rest depends on how that ends
  rcases hjson : Json.read text with failure | v
  · cases failure with
    | longNumeral =>
      refine iff_of_false ?_ (not_not_intro (Or.inl ⟨hyaml, hjson⟩))
      rintro (⟨v, h⟩ | ⟨e, h⟩) <;> cases h
    | fault fault position =>
      dsimp only
      cases known with
      | none =>
        rw [if_neg (by simp), accounted_decodeYaml_iff,
          givesUp_iff_of_triesYaml (Or.inr ⟨rfl, fault, position, hjson⟩)]
      | some format =>
        cases format with
        | yaml => exact absurd rfl hyaml
        | json =>
          rw [if_pos rfl]
          refine iff_of_true (Or.inr ⟨_, rfl⟩) ?_
          rintro (⟨-, h⟩ | ⟨h | ⟨h, -⟩, -⟩)
          · cases hjson.symm.trans h
          · cases h
          · cases h
  · refine iff_of_true (accounted_requireMap v) ?_
    rintro (⟨-, h⟩ | ⟨h | ⟨-, fault, position, h⟩, -⟩)
    · cases hjson.symm.trans h
    · exact hyaml h
    · cases hjson.symm.trans h

/-! ## Loading -/

/-- Loading ends with a document, or with an account of what is wrong. -/
def EndsAsDocumented (found : Except SourceError Content) : Prop :=
  (∃ doc, (load found).2 = .ok doc) ∨ ∃ e, (load found).2 = .error (.wrong e)

/-- The version of a decoded text is accepted, and a value stands in it that does not fit its
place. -/
def Misfitting (raw : Value) : Prop :=
  (∃ version, checkVersion raw = .ok version) ∧ Document.Faulty raw

/-- A decoder gives up on the text, or the text is decoded and does not fit. -/
def Unaccounted (content : Content) : Prop :=
  GivesUp content.format content.text ∨
    ∃ raw, decode content.format content.text = .ok raw ∧ Misfitting raw

/-- A text that is not decoded ends loading as documented if there is an account of it. -/
theorem endsAsDocumented_of_decode_eq_error {content : Content} {failure : DecodeFailure}
    (h : decode content.format content.text = .error failure) :
    EndsAsDocumented (.ok content) ↔ Accounted (.error failure) := by
  have hload : (load (.ok content)).2 = .error (Failure.ofDecode failure) := by
    rw [load, decodeContent, h]
    rfl
  rw [EndsAsDocumented, hload]
  cases failure with
  | wrong e => exact iff_of_true (Or.inr ⟨_, rfl⟩) (Or.inr ⟨e, rfl⟩)
  | longNumeral =>
    refine iff_of_false ?_ ?_
    · rintro (⟨doc, h⟩ | ⟨e, h⟩) <;> cases h
    · rintro (⟨v, h⟩ | ⟨e, h⟩) <;> cases h
  | scalar fault =>
    refine iff_of_false ?_ ?_
    · rintro (⟨doc, h⟩ | ⟨e, h⟩) <;> cases h
    · rintro (⟨v, h⟩ | ⟨e, h⟩) <;> cases h

/-- A text that is decoded ends loading as documented if it fits. -/
theorem endsAsDocumented_of_decode_eq_ok {content : Content} {raw : Value}
    (h : decode content.format content.text = .ok raw) :
    EndsAsDocumented (.ok content) ↔ ¬ Misfitting raw := by
  have hload : load (.ok content) = documentOf raw := by
    rw [load, decodeContent, h]
    rfl
  rw [EndsAsDocumented, hload, documentOf, Misfitting]
  rcases checkVersion raw with e | ⟨version, warnings⟩
  · refine iff_of_true (Or.inr ⟨_, rfl⟩) ?_
    rintro ⟨⟨version, h⟩, -⟩
    cases h
  · have hfaulty : Outcome.Fails (Document.ofValue raw version) ↔ Document.Faulty raw :=
      Document.fails_ofValue_iff
    rw [← hfaulty]
    dsimp only
    rcases Document.ofValue raw version with misfit | doc
    · refine iff_of_false ?_ (not_not_intro ⟨⟨_, rfl⟩, misfit, rfl⟩)
      rintro (⟨doc, h⟩ | ⟨e, h⟩) <;> cases h
    · exact iff_of_true (Or.inl ⟨doc, rfl⟩) fun h => Outcome.not_fails_ok doc h.2

/-- Loading ends with a document or with an account of what is wrong exactly if no decoder gives up
on the text and every value that is read in the decoded text fits its place.  This is up to the limit
on printed digits: whole numbers of any length fit where they are displayed. -/
theorem endsAsDocumented_iff (found : Except SourceError Content) :
    EndsAsDocumented found ↔ ¬ ∃ content, found = .ok content ∧ Unaccounted content := by
  rcases found with e | content
  · refine iff_of_true (Or.inr ⟨_, rfl⟩) ?_
    rintro ⟨content, h, -⟩
    cases h
  simp only [Except.ok.injEq, exists_eq_left', Unaccounted, not_or]
  rw [← accounted_decode_iff]
  rcases hdecode : decode content.format content.text with failure | raw
  · rw [endsAsDocumented_of_decode_eq_error hdecode]
    exact (and_iff_left (by simp)).symm
  · rw [endsAsDocumented_of_decode_eq_ok hdecode]
    simp only [Except.ok.injEq, exists_eq_left']
    exact (and_iff_right (Or.inl ⟨raw, rfl⟩)).symm

/-! ## A text that is decoded and does not fit -/

/-- A document whose only operation has a number in the place of its tags. -/
def tagged : Content :=
  ⟨"\x7b\"openapi\":\"3.0.0\"," ++
    "\"paths\":\x7b\"/a\":\x7b\"get\":\x7b\"tags\":5\x7d\x7d\x7d\x7d", some .json⟩

/-- The misfit that ended loading, if one did. -/
def Failure.misfit? : Failure → Option Misfit
  | .misfit m => some m
  | _ => none

/-- Loading does not always end with a document or with an account of what is wrong. -/
theorem not_endsAsDocumented_tagged : ¬ ∀ found, EndsAsDocumented found := by
  intro hclaim
  have hmisfit : (Outcome.failure? (load (.ok tagged)).2).bind Failure.misfit? =
      some .notIterable := by decide +kernel
  rcases hclaim (.ok tagged) with ⟨doc, h⟩ | ⟨e, h⟩
  · rw [h] at hmisfit
    cases hmisfit
  · rw [h] at hmisfit
    cases hmisfit

end TypedClient.Loading
