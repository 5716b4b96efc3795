import TypedClient.Text.Lines

/-!
# Texts as bytes

Texts are stored as UTF-8.  Reading a stored text unifies its line ends; writing leaves them as they
are.  Every text has bytes: it holds no half of a surrogate pair (see `Text.ofCodeUnit`), which would
have none.

* `encode`, `decode?`: the bytes of a text, and the text of bytes that are UTF-8.
* `readLines?`: the text of stored bytes with unified line ends.
* `decode?_encode`: bytes that were written are read again.
-/

namespace TypedClient.Text

/-- The bytes of a text. -/
def encode (s : String) : ByteArray := s.toUTF8

/-- The text of bytes, if they are UTF-8. -/
def decode? (data : ByteArray) : Option String := String.fromUTF8? data

/-- The text of stored bytes, each line ended by a line feed. -/
def readLines? (data : ByteArray) : Option String :=
  (decode? data).map fun s => String.ofList (unifyNewlines s.toList)

theorem decode?_encode (s : String) : decode? (encode s) = some s := by
  unfold decode? encode String.fromUTF8?
  exact dif_pos s.isValidUTF8

/-- No carriage return is read. -/
theorem notMem_of_readLines? {data : ByteArray} {s : String} (h : readLines? data = some s) :
    '\r' ∉ s.toList := by
  rw [readLines?, Option.map_eq_some_iff] at h
  obtain ⟨found, -, rfl⟩ := h
  rw [String.toList_ofList]
  exact notMem_unifyNewlines _

/-- A text without carriage returns is read as it was written. -/
theorem readLines?_encode {s : String} (h : '\r' ∉ s.toList) : readLines? (encode s) = some s := by
  simp [readLines?, decode?_encode, unifyNewlines_eq_self h]

end TypedClient.Text
