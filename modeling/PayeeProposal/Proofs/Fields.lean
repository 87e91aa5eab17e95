import PayeeProposal.PayeeInput
import PayeeProposal.Proofs.Reading

/-!
# Records of one field or two

A record takes each of its fields from a member under any of the field's names, or from its place
when it is written as a list. Members of other names do not matter, nor does the order in which
members stand; a field that is there again is refused, whatever names and values it has.
-/

namespace PayeeProposal.Json

/-- The texts of the values that members have under some names, in order. -/
def valuesOf (names : List String) (ms : List (String × List Char)) : List (List Char) :=
  (ms.filter fun m => names.contains m.1).map Prod.snd

section Values

variable {names : List String} {m : String × List Char} {ms : List (String × List Char)}

theorem valuesOf_cons_of_mem (h : m.1 ∈ names) :
    valuesOf names (m :: ms) = m.2 :: valuesOf names ms := by
  simp [valuesOf, h]

theorem valuesOf_cons_of_not_mem (h : m.1 ∉ names) :
    valuesOf names (m :: ms) = valuesOf names ms := by
  simp [valuesOf, h]

end Values

section TwoFields

variable {σ α β γ : Type}

/-- What the texts for one field make of it: a field that is there already must not come again. -/
inductive Settles (reader : Reader β) : Option β → List (List Char) → Option (Option β) → Prop
  | nil {x : Option β} : Settles reader x [] (some x)
  | again {b : β} {text : List Char} {texts : List (List Char)} :
    Settles reader (some b) (text :: texts) none
  | refused {text : List Char} {texts : List (List Char)} (h : Reads reader text none) :
    Settles reader none (text :: texts) none
  | cons {b : β} {text : List Char} {texts : List (List Char)} {o : Option (Option β)}
    (h : Reads reader text (some b)) (hrest : Settles reader (some b) texts o) :
    Settles reader none (text :: texts) o

theorem settles_once {reader : Reader β} {text : List Char} {b : β}
    (h : Reads reader text (some b)) : Settles reader none [text] (some (some b)) :=
  .cons h .nil

/-- Texts of the wanted type settle a field one way or the other. -/
theorem exists_settles {reader : Reader β} {texts : List (List Char)}
    (h : ∀ text ∈ texts, ∃ o, Reads reader text o) : ∃ o, Settles reader none texts o := by
  match texts with
  | [] => exact ⟨_, .nil⟩
  | [text] =>
    obtain ⟨o, ho⟩ := h text (by simp)
    cases o with
    | none => exact ⟨_, .refused ho⟩
    | some b => exact ⟨_, settles_once ho⟩
  | text :: text' :: texts =>
    obtain ⟨o, ho⟩ := h text (by simp)
    cases o with
    | none => exact ⟨_, .refused ho⟩
    | some b => exact ⟨_, .cons ho .again⟩

/-- A field that is missing or is there more than once has no value. -/
theorem settles_join {reader : Reader β} {texts : List (List Char)}
    (h : ∀ text ∈ texts, ∃ o, Reads reader text o) (hlength : texts.length ≠ 1) :
    ∃ o, Settles reader none texts o ∧ o.join = none := by
  match texts with
  | [] => exact ⟨_, .nil, rfl⟩
  | text :: text' :: texts =>
    obtain ⟨o, ho⟩ := h text (by simp)
    cases o with
    | none => exact ⟨_, .refused ho, rfl⟩
    | some b => exact ⟨_, .cons ho .again, rfl⟩

/-- A field is refused when it is there more than once, or when its text is refused. -/
theorem settles_none {reader : Reader β} {texts : List (List Char)}
    (h : ∀ text ∈ texts, ∃ o, Reads reader text o)
    (hfault : 2 ≤ texts.length ∨ ∃ text ∈ texts, Reads reader text none) :
    Settles reader none texts none := by
  match texts with
  | [] => simp at hfault
  | [text] =>
    obtain ⟨_, hmem, hnone⟩ := hfault.resolve_left (by simp)
    obtain rfl := List.mem_singleton.mp hmem
    exact .refused hnone
  | text :: text' :: texts =>
    obtain ⟨o, ho⟩ := h text (by simp)
    cases o with
    | none => exact .refused ho
    | some b => exact .cons ho .again

/-- A record of two fields, the one under some names and the other under some others, and what has
been read of it. -/
structure TwoFields (form : RecordForm σ α) (partly : Option β → Option γ → σ)
    (names names' : List String) (reader : Reader β) (reader' : Reader γ) : Prop where
  empty : form.empty = partly none none
  apart : ∀ name ∈ names, name ∉ names'
  first : ∀ name ∈ names, ∀ x y,
    form.member name (partly x y) = .once x reader fun b => partly (some b) y
  second : ∀ name ∈ names', ∀ x y,
    form.member name (partly x y) = .once y reader' fun c => partly x (some c)
  unknown : ∀ name, name ∉ names → name ∉ names' → ∀ x y,
    form.member name (partly x y) = .unknown
  fields : ∃ put put', form.fields = [fieldReader reader put, fieldReader reader' put'] ∧
    (∀ x y b, put (partly x y) b = partly (some b) y) ∧
    ∀ x y c, put' (partly x y) c = partly x (some c)

variable {form : RecordForm σ α} {partly : Option β → Option γ → σ} {names names' : List String}
  {reader : Reader β} {reader' : Reader γ}

/-- A member for a field that is still free is read into it. -/
theorem takes_once {member : String → σ → Member σ} {s : σ} {m : String × List Char}
    {put : β → σ} {o : Option β} (hfree : member m.1 s = .once none reader put)
    (h : Reads reader m.2 o) : Takes member s m (o.map put) :=
  .known hfree (reads_map h put)

/-- Both fields together. -/
def both (partly : Option β → Option γ → σ) (x : Option (Option β)) (y : Option (Option γ)) :
    Option σ :=
  x.bind fun x => y.map (partly x)

theorem both_none_right (x : Option (Option β)) : both partly x none = none := by
  cases x <;> rfl

/-- Members settle each field by its own texts. -/
theorem TwoFields.takesAll (hform : TwoFields form partly names names' reader reader')
    {ms : List (String × List Char)} {x : Option β} {y : Option γ} {ox : Option (Option β)}
    {oy : Option (Option γ)} (hx : Settles reader x (valuesOf names ms) ox)
    (hy : Settles reader' y (valuesOf names' ms) oy)
    (hothers : ∀ m ∈ ms, m.1 ∉ names → m.1 ∉ names' → ValueText m.2) :
    TakesAll form.member (partly x y) ms (both partly ox oy) := by
  -- a member belongs to one field at most, and what has been read of the other one stays
  induction ms generalizing x y with
  | nil =>
    cases hx
    cases hy
    exact .nil
  | cons m ms ih =>
    have hrest : ∀ n ∈ ms, n.1 ∉ names → n.1 ∉ names' → ValueText n.2 :=
      fun n hn => hothers n (by simp [hn])
    by_cases hm : m.1 ∈ names
    · rw [valuesOf_cons_of_mem hm] at hx
      rw [valuesOf_cons_of_not_mem (hform.apart _ hm)] at hy
      have hmember := hform.first _ hm x y
      cases hx with
      | again => exact .refused (.repeated hmember)
      | refused h => exact .refused (takes_once hmember h)
      | cons h hx => exact .cons (takes_once hmember h) (ih hx hy hrest)
    · rw [valuesOf_cons_of_not_mem hm] at hx
      by_cases hm' : m.1 ∈ names'
      · rw [valuesOf_cons_of_mem hm'] at hy
        have hmember := hform.second _ hm' x y
        cases hy with
        | again =>
          rw [both_none_right]
          exact .refused (.repeated hmember)
        | refused h =>
          rw [both_none_right]
          exact .refused (takes_once hmember h)
        | cons h hy => exact .cons (takes_once hmember h) (ih hx hy hrest)
      · rw [valuesOf_cons_of_not_mem hm'] at hy
        have hvalue := hothers m (by simp) hm hm'
        exact .cons (.unknown (hform.unknown _ hm hm' x y) hvalue) (ih hx hy hrest)

/-- An object of a record of two fields. -/
theorem TwoFields.reads_members (hform : TwoFields form partly names names' reader reader')
    {text : List Char} {ms : List (String × List Char)} {ox : Option (Option β)}
    {oy : Option (Option γ)} (h : NamedText text ms)
    (hx : Settles reader none (valuesOf names ms) ox)
    (hy : Settles reader' none (valuesOf names' ms) oy)
    (hothers : ∀ m ∈ ms, m.1 ∉ names → m.1 ∉ names' → ValueText m.2) :
    Reads (Reader.record form) text ((both partly ox oy).bind form.complete) := by
  apply reads_object h
  rw [hform.empty]
  exact hform.takesAll hx hy hothers

/-- A place in a list is read into its field. -/
theorem reads_place (put : σ → β → σ) (s : σ) {text : List Char} {o : Option β}
    (h : Reads reader text o) : Reads (fieldReader reader put s) text (o.map (put s)) :=
  reads_map h (put s)

/-- A record of two fields that is written as a list has them in order. -/
theorem TwoFields.reads_places (hform : TwoFields form partly names names' reader reader')
    {text : List Char} {items : List (List Char)} {ox : Option (Option β)}
    {oy : Option (Option γ)} (h : ListText text items) (hlength : items.length ≤ 2)
    (hx : Settles reader none (items.take 1) ox) (hy : Settles reader' none (items.drop 1) oy) :
    Reads (Reader.record form) text ((both partly ox oy).bind form.complete) := by
  obtain ⟨put, put', hfields, hput, hput'⟩ := hform.fields
  apply reads_positions h
  rw [hform.empty, hfields]
  match items with
  | [] =>
    cases hx
    cases hy
    exact .nil
  | [first] =>
    cases hy
    cases hx with
    | refused h => exact .refused (reads_place _ _ h)
    | cons h hx =>
      cases hx
      have hplace := reads_place put (partly none none) h
      rw [Option.map_some, hput] at hplace
      exact .cons hplace .nil
  | [first, second] =>
    cases hx with
    | refused h => exact .refused (reads_place _ _ h)
    | @cons b _ _ _ h hx =>
      cases hx
      have hplace := reads_place put (partly none none) h
      rw [Option.map_some, hput] at hplace
      refine .cons hplace ?_
      cases hy with
      | refused h' => exact .refused (reads_place _ _ h')
      | cons h' hy =>
        cases hy
        have hplace' := reads_place put' (partly (some b) none) h'
        rw [Option.map_some, hput'] at hplace'
        exact .cons hplace' .nil

end TwoFields

section OneField

variable {α β : Type}

/-- A record of one field under some names, and what has been read of it. -/
structure OneField (form : RecordForm (Option β) α) (names : List String) (reader : Reader β) :
    Prop where
  empty : form.empty = none
  known : ∀ name ∈ names, ∀ x, form.member name x = .once x reader some
  unknown : ∀ name, name ∉ names → ∀ x, form.member name x = .unknown
  fields : ∃ put, form.fields = [fieldReader reader put] ∧ ∀ x b, put x b = some b

variable {form : RecordForm (Option β) α} {names : List String} {reader : Reader β}

/-- Members settle the field by its texts. -/
theorem OneField.takesAll (hform : OneField form names reader) {ms : List (String × List Char)}
    {x : Option β} {o : Option (Option β)} (hx : Settles reader x (valuesOf names ms) o)
    (hothers : ∀ m ∈ ms, m.1 ∉ names → ValueText m.2) : TakesAll form.member x ms o := by
  induction ms generalizing x with
  | nil =>
    cases hx
    exact .nil
  | cons m ms ih =>
    have hrest : ∀ n ∈ ms, n.1 ∉ names → ValueText n.2 := fun n hn => hothers n (by simp [hn])
    by_cases hm : m.1 ∈ names
    · rw [valuesOf_cons_of_mem hm] at hx
      have hmember := hform.known _ hm x
      cases hx with
      | again => exact .refused (.repeated hmember)
      | refused h => exact .refused (takes_once hmember h)
      | cons h hx => exact .cons (takes_once hmember h) (ih hx hrest)
    · rw [valuesOf_cons_of_not_mem hm] at hx
      exact .cons (.unknown (hform.unknown _ hm x) (hothers m (by simp) hm)) (ih hx hrest)

/-- An object of a record of one field. -/
theorem OneField.reads_members (hform : OneField form names reader) {text : List Char}
    {ms : List (String × List Char)} {o : Option (Option β)} (h : NamedText text ms)
    (hx : Settles reader none (valuesOf names ms) o)
    (hothers : ∀ m ∈ ms, m.1 ∉ names → ValueText m.2) :
    Reads (Reader.record form) text (o.bind form.complete) := by
  apply reads_object h
  rw [hform.empty]
  exact hform.takesAll hx hothers

/-- A record of one field that is written as a list. -/
theorem OneField.reads_places (hform : OneField form names reader) {text : List Char}
    {items : List (List Char)} {o : Option (Option β)} (h : ListText text items)
    (hlength : items.length ≤ 1) (hx : Settles reader none items o) :
    Reads (Reader.record form) text (o.bind form.complete) := by
  obtain ⟨put, hfields, hput⟩ := hform.fields
  apply reads_positions h
  rw [hform.empty, hfields]
  match items with
  | [] =>
    cases hx
    exact .nil
  | [item] =>
    cases hx with
    | refused h => exact .refused (reads_place _ _ h)
    | cons h hx =>
      cases hx
      have hplace := reads_place put none h
      rw [Option.map_some, hput] at hplace
      exact .cons hplace .nil

end OneField

end PayeeProposal.Json
