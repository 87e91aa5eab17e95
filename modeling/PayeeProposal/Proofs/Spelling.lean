import PayeeProposal.Proofs.Layout

/-!
# The spellings of a list of payees

A list of payees may be written in many ways: as an object or as a list of its fields, with members
in any order, under any of their names, among any other members, and with any escapes and space.
All of them are read as the list that they write. An object that has a field twice, or an
assignment that lacks one, is refused for it, even where all that is there agrees.
-/

namespace PayeeProposal

namespace Json

/-! ## Texts of all kinds -/

theorem exists_booleanText (b : Bool) : ∃ text, BooleanText text b := by
  cases b
  · exact ⟨_, .no⟩
  · exact ⟨_, .yes⟩

/-- A list of items without space in it. -/
def compactList (items : List (List Char)) : List Char :=
  '[' :: ([','].intercalate items ++ [']'])

/-- An object of members without space in it. -/
def compactObject (ms : List (String × List Char)) : List Char :=
  let write (m : String × List Char) : List Char :=
    '\x22' :: (m.1.toList.flatMap escapeChar ++ '\x22' :: ':' :: m.2)
  '\x7b' :: ([','].intercalate (ms.map write) ++ ['\x7d'])

theorem items_compact (items : List (List Char)) : Items true ([','].intercalate items) items := by
  simpa using items_intercalate spaces_nil spaces_nil items

theorem listText_compactList (items : List (List Char)) : ListText (compactList items) items :=
  ⟨_, items_compact items, rfl⟩

/-- There is an object of any members, in any order and with any names. -/
theorem namedText_compactObject (ms : List (String × List Char)) :
    NamedText (compactObject ms) ms := by
  refine ⟨_, _, items_compact _, ?_, rfl⟩
  refine List.forall₂_map_left_iff.mpr (List.forall₂_same.mpr fun m _ => ?_)
  exact ⟨_, letters_escaped m.1.toList, [], [], spaces_nil, spaces_nil, rfl⟩

end Json

open Json (StringText BooleanText ListText NamedText ValueText valuesOf Reads)

/-! ## Assignments -/

namespace Assignment

/-- What writes an assignment: an object that has each field once, or a list of both fields. -/
inductive Written : List Char → Assignment → Prop
  | object {text t p : List Char} {ms : List (String × List Char)} {a : Assignment}
    (h : NamedText text ms) (ht : valuesOf ["transmitter"] ms = [t])
    (hp : valuesOf ["payee"] ms = [p]) (htext : StringText t a.transmitter)
    (hptext : StringText p a.payee)
    (hothers : ∀ m ∈ ms, m.1 ∉ ["transmitter"] → m.1 ∉ ["payee"] → ValueText m.2) :
    Written text a
  | list {text t p : List Char} {a : Assignment} (h : ListText text [t, p])
    (htext : StringText t a.transmitter) (hptext : StringText p a.payee) : Written text a

/-- What would write an assignment, if it did not lack a field or have one more than once. -/
inductive Faulty : List Char → Prop
  | object {text : List Char} {ms : List (String × List Char)} (h : NamedText text ms)
    (ht : ∀ t ∈ valuesOf ["transmitter"] ms, ∃ s, StringText t s)
    (hp : ∀ p ∈ valuesOf ["payee"] ms, ∃ s, StringText p s)
    (hothers : ∀ m ∈ ms, m.1 ∉ ["transmitter"] → m.1 ∉ ["payee"] → ValueText m.2)
    (hfault : (valuesOf ["transmitter"] ms).length ≠ 1 ∨ (valuesOf ["payee"] ms).length ≠ 1) :
    Faulty text
  | list {text : List Char} {items : List (List Char)} (h : ListText text items)
    (hitems : ∀ item ∈ items, ∃ s, StringText item s) (hfew : items.length < 2) : Faulty text

theorem twoFields : Json.TwoFields form Partial.mk ["transmitter"] ["payee"] Json.Reader.string
    Json.Reader.string where
  empty := rfl
  apart := by simp
  first := by
    intro name hname x y
    obtain rfl := List.mem_singleton.mp hname
    rfl
  second := by
    intro name hname x y
    obtain rfl := List.mem_singleton.mp hname
    rfl
  unknown := by
    intro name hname hname' x y
    simp only [List.mem_singleton] at hname hname'
    simp only [form, if_neg hname, if_neg hname']
  fields := ⟨_, _, rfl, fun _ _ _ => rfl, fun _ _ _ => rfl⟩

/-- Both fields are needed. -/
theorem complete_both_eq_none {x y : Option (Option String)} (h : x.join = none ∨ y.join = none) :
    (Json.both Partial.mk x y).bind form.complete = none := by
  rcases x with _ | _ | t <;> rcases y with _ | _ | p <;> simp_all [Json.both, form]

/-- However an assignment is written, it is read. -/
theorem Written.reads {text : List Char} {a : Assignment} (h : Written text a) :
    Reads reader text (some a) := by
  cases h with
  | object h ht hp htext hptext hothers =>
    have hx := Json.settles_once (Json.reads_string htext)
    have hy := Json.settles_once (Json.reads_string hptext)
    rw [← ht] at hx
    rw [← hp] at hy
    exact twoFields.reads_members h hx hy hothers
  | list h htext hptext =>
    have hx := Json.settles_once (Json.reads_string htext)
    have hy := Json.settles_once (Json.reads_string hptext)
    exact twoFields.reads_places h (Nat.le_refl 2) hx hy

/-- An assignment that lacks a field or has one more than once is refused. -/
theorem Faulty.reads {text : List Char} (h : Faulty text) : Reads reader text none := by
  have hstring {texts : List (List Char)} (hs : ∀ t ∈ texts, ∃ s, StringText t s) :
      ∀ t ∈ texts, ∃ o, Reads Json.Reader.string t o := fun t ht =>
    let ⟨_, h⟩ := hs t ht
    ⟨_, Json.reads_string h⟩
  cases h with
  | @object ms h ht hp hothers hfault =>
    have hnone : ∃ x y, Json.Settles Json.Reader.string none (valuesOf ["transmitter"] ms) x ∧
        Json.Settles Json.Reader.string none (valuesOf ["payee"] ms) y ∧
        (x.join = none ∨ y.join = none) := by
      rcases hfault with hfault | hfault
      · obtain ⟨x, hx, hjoin⟩ := Json.settles_join (hstring ht) hfault
        obtain ⟨y, hy⟩ := Json.exists_settles (hstring hp)
        exact ⟨x, y, hx, hy, .inl hjoin⟩
      · obtain ⟨x, hx⟩ := Json.exists_settles (hstring ht)
        obtain ⟨y, hy, hjoin⟩ := Json.settles_join (hstring hp) hfault
        exact ⟨x, y, hx, hy, .inr hjoin⟩
    obtain ⟨x, y, hx, hy, hjoin⟩ := hnone
    exact complete_both_eq_none hjoin ▸ twoFields.reads_members h hx hy hothers
  | @list items h hitems hfew =>
    obtain ⟨x, hx⟩ := Json.exists_settles
      (hstring fun t ht => hitems t (List.mem_of_mem_take (i := 1) ht))
    have hy : Json.Settles Json.Reader.string none (items.drop 1) (some none) := by
      rw [List.drop_eq_nil_of_le (by omega)]
      exact .nil
    have hreads := twoFields.reads_places h (by omega) hx hy
    rwa [complete_both_eq_none (.inr rfl)] at hreads

/-- An assignment as a list without space in it. -/
def compact (a : Assignment) : List Char :=
  Json.compactList [(Json.quote a.transmitter).toList, (Json.quote a.payee).toList]

/-- Every assignment can be written, whatever characters are in its fields. -/
theorem written_compact (a : Assignment) : Written a.compact a :=
  .list (Json.listText_compactList _) (Json.stringText_quote _) (Json.stringText_quote _)

end Assignment

/-! ## Lists of payees -/

namespace PayeeInput

/-- What writes a field that may be absent: one text for its value, or none for its default. -/
inductive FieldText {β : Type} (writes : List Char → β → Prop) (default : β) :
    List (List Char) → β → Prop
  | absent : FieldText writes default [] default
  | present {text : List Char} {b : β} (h : writes text b) : FieldText writes default [text] b

/-- A list of assignments, each of them written in its own way. -/
def OperatorsText (text : List Char) (as : List Assignment) : Prop :=
  ∃ items, ListText text items ∧ List.Forall₂ Assignment.Written items as

/-- What would write a list of assignments, if some of them did not lack a field or have one more
than once. -/
def OperatorsFaulty (text : List Char) : Prop :=
  ∃ items, ListText text items ∧
    (∀ item ∈ items, (∃ a, Assignment.Written item a) ∨ Assignment.Faulty item) ∧
    ∃ item ∈ items, Assignment.Faulty item

/-- What writes a list of payees: an object that has each field at most once, or a list of the
fields, in which those at the end may be absent. -/
inductive Written : List Char → PayeeInput → Prop
  | object {text : List Char} {ms : List (String × List Char)} {input : PayeeInput}
    (h : NamedText text ms)
    (hoperators : FieldText OperatorsText [] (valuesOf ["operators"] ms) input.operators)
    (hallow : FieldText BooleanText false (valuesOf allowNames ms) input.allowUnfunded)
    (hothers : ∀ m ∈ ms, m.1 ∉ ["operators"] → m.1 ∉ allowNames → ValueText m.2) :
    Written text input
  | list {text : List Char} {items : List (List Char)} {input : PayeeInput}
    (h : ListText text items) (hlength : items.length ≤ 2)
    (hoperators : FieldText OperatorsText [] (items.take 1) input.operators)
    (hallow : FieldText BooleanText false (items.drop 1) input.allowUnfunded) :
    Written text input

/-- What would write a list of payees, if neither a field of it nor one of an assignment were there
more than once and no assignment lacked one. -/
inductive Faulty : List Char → Prop
  | object {text : List Char} {ms : List (String × List Char)} (h : NamedText text ms)
    (hoperators : ∀ t ∈ valuesOf ["operators"] ms,
      (∃ as, OperatorsText t as) ∨ OperatorsFaulty t)
    (hallow : ∀ t ∈ valuesOf allowNames ms, ∃ b, BooleanText t b)
    (hothers : ∀ m ∈ ms, m.1 ∉ ["operators"] → m.1 ∉ allowNames → ValueText m.2)
    (hfault : 2 ≤ (valuesOf ["operators"] ms).length ∨ 2 ≤ (valuesOf allowNames ms).length ∨
      ∃ t ∈ valuesOf ["operators"] ms, OperatorsFaulty t) : Faulty text

theorem twoFields : Json.TwoFields form Partial.mk ["operators"] allowNames
    (Json.Reader.list Assignment.reader) Json.Reader.boolean where
  empty := rfl
  apart := by decide
  first := by
    intro name hname x y
    obtain rfl := List.mem_singleton.mp hname
    rfl
  second := by
    intro name hname x y
    have hne : name ≠ "operators" := by
      rintro rfl
      exact absurd hname (by decide)
    simp only [form, if_neg hne, List.contains_iff_mem, if_pos hname]
  unknown := by
    intro name hname hname' x y
    rw [List.mem_singleton] at hname
    simp only [form, if_neg hname, List.contains_iff_mem, if_neg hname']
  fields := ⟨_, _, rfl, fun _ _ _ => rfl, fun _ _ _ => rfl⟩

theorem FieldText.settles {β : Type} {writes : List Char → β → Prop} {default : β}
    {reader : Json.Reader β} (hreads : ∀ text b, writes text b → Reads reader text (some b))
    {texts : List (List Char)} {b : β} (h : FieldText writes default texts b) :
    ∃ x, Json.Settles reader none texts (some x) ∧ x.getD default = b := by
  cases h with
  | absent => exact ⟨none, .nil, rfl⟩
  | present h => exact ⟨some b, Json.settles_once (hreads _ _ h), rfl⟩

theorem OperatorsText.reads {text : List Char} {as : List Assignment} (h : OperatorsText text as) :
    Reads (Json.Reader.list Assignment.reader) text (some as) := by
  obtain ⟨items, htext, hitems⟩ := h
  exact Json.reads_list_some htext (hitems.imp fun _ _ h => h.reads)

theorem OperatorsFaulty.reads {text : List Char} (h : OperatorsFaulty text) :
    Reads (Json.Reader.list Assignment.reader) text none := by
  obtain ⟨items, htext, hitems, item, hitem, hfaulty⟩ := h
  refine Json.reads_list_none htext (fun i hi => ?_) ⟨item, hitem, hfaulty.reads⟩
  rcases hitems i hi with ⟨a, h⟩ | h
  · exact ⟨_, h.reads⟩
  · exact ⟨_, h.reads⟩

/-- However a list of payees is written, it is read. -/
theorem Written.reads {text : List Char} {input : PayeeInput} (h : Written text input) :
    Reads (Json.Reader.record form) text (some input) := by
  obtain ⟨operators, allowUnfunded⟩ := input
  cases h with
  | object h hoperators hallow hothers =>
    obtain ⟨x, hx, rfl⟩ := hoperators.settles fun _ _ h => h.reads
    obtain ⟨y, hy, rfl⟩ := hallow.settles fun _ _ h => Json.reads_boolean h
    exact twoFields.reads_members h hx hy hothers
  | list h hlength hoperators hallow =>
    obtain ⟨x, hx, rfl⟩ := hoperators.settles fun _ _ h => h.reads
    obtain ⟨y, hy, rfl⟩ := hallow.settles fun _ _ h => Json.reads_boolean h
    exact twoFields.reads_places h hlength hx hy

/-- A list of payees with something twice, or with an assignment that lacks something, is
refused. -/
theorem Faulty.reads {text : List Char} (h : Faulty text) :
    Reads (Json.Reader.record form) text none := by
  cases h with
  | @object ms h hoperators hallow hothers hfault =>
    have hreads : ∀ t ∈ valuesOf ["operators"] ms,
        ∃ o, Reads (Json.Reader.list Assignment.reader) t o := by
      intro t ht
      rcases hoperators t ht with ⟨as, h⟩ | h
      · exact ⟨_, h.reads⟩
      · exact ⟨_, h.reads⟩
    have hreads' : ∀ t ∈ valuesOf allowNames ms, ∃ o, Reads Json.Reader.boolean t o := by
      intro t ht
      obtain ⟨b, h⟩ := hallow t ht
      exact ⟨_, Json.reads_boolean h⟩
    obtain ⟨x, hx⟩ := Json.exists_settles hreads
    obtain ⟨y, hy⟩ := Json.exists_settles hreads'
    rcases hfault with hfault | hfault | ⟨t, ht, hfaulty⟩
    · exact twoFields.reads_members h (Json.settles_none hreads (.inl hfault)) hy hothers
    · have hnone := twoFields.reads_members h hx (Json.settles_none hreads' (.inl hfault)) hothers
      rwa [Json.both_none_right] at hnone
    · have hnone := Json.settles_none hreads (.inr ⟨t, ht, hfaulty.reads⟩)
      exact twoFields.reads_members h hnone hy hothers

theorem exists_written (input : PayeeInput) : ∃ text, Written text input := by
  have hoperators : OperatorsText (Json.compactList (input.operators.map Assignment.compact))
      input.operators :=
    ⟨_, Json.listText_compactList _, List.forall₂_map_left_iff.mpr
      (List.forall₂_same.mpr fun a _ => a.written_compact)⟩
  obtain ⟨allow, hallow⟩ := Json.exists_booleanText input.allowUnfunded
  exact ⟨_, .object (Json.namedText_compactObject [("allowUnfundedPayee", allow),
    ("operators", _)]) (.present hoperators) (.present hallow) (by simp [allowNames])⟩

/-- Every list of payees can be written, and any text that writes it, with any space around the
text, is read as this list. A text that would write one if nothing were there twice and no
assignment lacked a field is refused for its data. -/
theorem ofJson_spelled :
    (∀ input, ∃ text, Written text input) ∧
      ∀ s text, Json.Around s text →
        (∀ input, Written text input → ofJson s = .ok input) ∧
          (Faulty text → ∃ e, ofJson s = .error e ∧ e.category = "data") := by
  refine ⟨exists_written, fun s text hs =>
    ⟨fun input h => Json.parse_of_reads h.reads hs, fun h => ?_⟩⟩
  exact ⟨.mistyped, Json.parse_of_reads h.reads hs, rfl⟩

/-- A letter may be written by its number, and other members do not matter. Two names of a field
are the field twice, though they agree. -/
theorem ofJson_spelled_escaped :
    let text := "\x7b\"x\":null,\"allow_unfunded_payee\":true," ++
      "\"operators\":[[\"\\u0041\",\"p\"]]\x7d"
    let twice := "\x7b\"allowFundRecipient\":true,\"allow_unfunded_payee\":true\x7d"
    let input : PayeeInput := ⟨[⟨"A", "p"⟩], true⟩
    Json.Around (" " ++ text ++ "\n") text.toList ∧ Written text.toList input ∧
      ofJson (" " ++ text ++ "\n") = .ok input ∧
      Json.Around twice twice.toList ∧ Faulty twice.toList ∧
      ∃ e, ofJson twice = .error e ∧ e.category = "data" := by
  intro text twice input
  have haround : Json.Around (" " ++ text ++ "\n") text.toList :=
    ⟨[' '], ['\n'], List.forall_mem_singleton.mpr rfl, List.forall_mem_singleton.mpr rfl, by simp⟩
  have haroundTwice : Json.Around twice twice.toList :=
    ⟨[], [], Json.spaces_nil, Json.spaces_nil, by simp⟩
  have hwritten : Written text.toList input := by
    let assignment := Json.compactList ["\"\\u0041\"".toList, "\"p\"".toList]
    let members := [("x", ['n', 'u', 'l', 'l']), ("allow_unfunded_payee", ['t', 'r', 'u', 'e']),
      ("operators", Json.compactList [assignment])]
    have hassignment : Assignment.Written assignment ⟨"A", "p"⟩ := by
      refine .list (Json.listText_compactList _) ⟨"\\u0041".toList, ?_, rfl⟩
        ⟨['p'], Json.letters_escaped ['p'], rfl⟩
      exact Json.Letters.unit (show Json.UnitText ['0', '0', '4', '1'] 65 from ⟨rfl, rfl⟩) rfl rfl
        .nil
    have hoperators : OperatorsText (Json.compactList [assignment]) input.operators :=
      ⟨_, Json.listText_compactList _, .cons hassignment .nil⟩
    have hothers : ∀ m ∈ members, m.1 ∉ ["operators"] → m.1 ∉ allowNames → ValueText m.2 := by
      intro m hm hoperators hallow
      simp only [members, List.mem_cons, List.not_mem_nil, or_false] at hm
      rcases hm with rfl | rfl | rfl
      · exact .null
      · exact absurd (by decide) hallow
      · exact absurd (by decide) hoperators
    rw [show text.toList = Json.compactObject members by decide]
    exact .object (Json.namedText_compactObject members) (.present hoperators) (.present .yes)
      hothers
  have hfaulty : Faulty twice.toList := by
    let members := [("allowFundRecipient", ['t', 'r', 'u', 'e']),
      ("allow_unfunded_payee", ['t', 'r', 'u', 'e'])]
    have hallow : ∀ t ∈ valuesOf allowNames members, ∃ b, BooleanText t b := by
      intro t ht
      obtain rfl : t = ['t', 'r', 'u', 'e'] := by simpa [valuesOf, members, allowNames] using ht
      exact ⟨true, .yes⟩
    have hothers : ∀ m ∈ members, m.1 ∉ ["operators"] → m.1 ∉ allowNames → ValueText m.2 := by
      intro m hm _ hallow
      simp only [members, List.mem_cons, List.not_mem_nil, or_false] at hm
      rcases hm with rfl | rfl
      · exact absurd (by decide) hallow
      · exact absurd (by decide) hallow
    rw [show twice.toList = Json.compactObject members by decide]
    exact .object (Json.namedText_compactObject members) (by simp [members, valuesOf]) hallow
      hothers (.inr (.inl (by decide)))
  obtain ⟨-, hread⟩ := ofJson_spelled
  exact ⟨haround, hwritten, (hread _ _ haround).1 input hwritten, haroundTwice, hfaulty,
    (hread _ _ haroundTwice).2 hfaulty⟩

end PayeeInput

end PayeeProposal
