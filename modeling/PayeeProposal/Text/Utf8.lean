/-!
# Text as bytes

UTF-8 both ways between texts and byte lists.
-/

namespace PayeeProposal.Text

/-- The bytes of a text. -/
def utf8 (s : String) : List UInt8 :=
  s.toUTF8.data.toList

/-- The text that the bytes encode, if they are well-formed. -/
def ofUtf8? (bs : List UInt8) : Option String :=
  String.fromUTF8? ⟨bs.toArray⟩

/-- Bytes are read as the one text that they encode. -/
theorem ofUtf8?_eq_some_iff {bs : List UInt8} {s : String} :
    ofUtf8? bs = some s ↔ utf8 s = bs := by
  unfold ofUtf8? String.fromUTF8?
  split
  · constructor
    · intro h
      obtain rfl := Option.some.inj h
      rfl
    · rintro rfl
      rfl
  · rename_i hinvalid
    simp only [reduceCtorEq, false_iff]
    rintro rfl
    exact hinvalid s.isValidUTF8

end PayeeProposal.Text
