/-!
# Bytes of a fixed number

Keys, hashes and signatures are byte lists whose length is part of their type.
-/

namespace PayeeProposal.Bytes

/-- Exactly `n` bytes. -/
structure Fixed (n : Nat) where
  bytes : List UInt8
  length_eq : bytes.length = n
deriving DecidableEq

namespace Fixed

variable {n : Nat}

/-- The given bytes, if there are `n`. -/
def ofBytes? (bs : List UInt8) : Option (Fixed n) :=
  if h : bs.length = n then some ⟨bs, h⟩ else none

/-- The first `n` bytes, missing ones being zero. -/
def ofLeading (bs : List UInt8) : Fixed n :=
  ⟨(bs ++ List.replicate n 0).take n, by simp⟩

theorem ext_bytes {a b : Fixed n} (h : a.bytes = b.bytes) : a = b := by
  cases a
  cases b
  simpa using h

@[simp] theorem ofBytes?_bytes (a : Fixed n) : ofBytes? a.bytes = some a := by
  simp [ofBytes?, a.length_eq]

theorem ofLeading_append (a : Fixed n) (bs : List UInt8) : ofLeading (a.bytes ++ bs) = a := by
  apply ext_bytes
  simp [ofLeading, a.length_eq]

end Fixed

/-- The bytes from an offset on, as many as wanted. -/
def slice (offset width : Nat) (bs : List UInt8) : List UInt8 :=
  (bs.drop offset).take width

theorem length_slice {offset width : Nat} {bs : List UInt8} (h : offset + width ≤ bs.length) :
    (slice offset width bs).length = width := by
  simp only [slice, List.length_take, List.length_drop]
  omega

end PayeeProposal.Bytes
