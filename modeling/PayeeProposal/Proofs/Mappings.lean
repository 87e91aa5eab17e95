import Mathlib.Data.List.Forall2
import Mathlib.Logic.Equiv.Defs
import PayeeProposal.Proofs.Scalars

/-!
# Reading the members of a mapping

A mapping that is read as a record is a list of named nodes. Of each field of the record there may
be one such node at most, and the node alone says what becomes of the field; nodes under other
names, and the order of all of them, do not matter.
-/

namespace PayeeProposal.Yaml

/-! ## Members -/

/-- An entry of a mapping is a member of a record. -/
def IsMember (d : Document) (e : Node × Node) (m : String × Node) : Prop :=
  SaysText d e.1 m.1 ∧ m.2 = e.2

/-- The members of a node that is read as a record: those of a mapping, or none where nothing is
written. -/
inductive Members (d : Document) (n : Node) : List (String × Node) → Prop
  | mapping {es : List (Node × Node)} {ms : List (String × Node)}
    (h : d.resolve n = some (.mapping es)) (hms : List.Forall₂ (IsMember d) es ms) : Members d n ms
  | blank {s : Scalar} (h : d.resolve n = some (.scalar s)) (hs : s.isEmpty = true) : Members d n []

/-- The nodes that members have under a name, in order. -/
def nodesOf (name : String) (ms : List (String × Node)) : List Node :=
  (ms.filter fun m => m.1 == name).map Prod.snd

variable {d : Document}

theorem nodesOf_cons_same (name : String) (n : Node) (ms : List (String × Node)) :
    nodesOf name ((name, n) :: ms) = n :: nodesOf name ms := by
  simp [nodesOf]

theorem nodesOf_cons_other {name name' : String} (h : name' ≠ name) (n : Node)
    (ms : List (String × Node)) : nodesOf name ((name', n) :: ms) = nodesOf name ms := by
  simp [nodesOf, h]

theorem IsMember.unique {e : Node × Node} {m m' : String × Node} (h : IsMember d e m)
    (h' : IsMember d e m') : m = m' := by
  obtain ⟨hname, hnode⟩ := h
  obtain ⟨hname', hnode'⟩ := h'
  rw [← Reader.text_eq_some_iff] at hname hname'
  exact Prod.ext (Option.some.inj (hname.symm.trans hname')) (hnode.trans hnode'.symm)

theorem IsMember.unique_list {es : List (Node × Node)} {ms ms' : List (String × Node)}
    (h : List.Forall₂ (IsMember d) es ms) (h' : List.Forall₂ (IsMember d) es ms') : ms = ms' := by
  induction h generalizing ms' with
  | nil => rw [List.forall₂_nil_left_iff.mp h']
  | cons hm _ ih =>
    obtain ⟨m', ms', hm', hms', rfl⟩ := List.forall₂_cons_left_iff.mp h'
    rw [hm.unique hm', ih hms']

theorem Members.unique {n : Node} {ms ms' : List (String × Node)} (h : Members d n ms)
    (h' : Members d n ms') : ms = ms' := by
  cases h with
  | mapping h hms =>
    cases h' with
    | mapping h' hms' =>
      cases h.symm.trans h'
      exact IsMember.unique_list hms hms'
    | blank h' => cases h.symm.trans h'
  | blank h =>
    cases h' with
    | mapping h' => cases h.symm.trans h'
    | blank => rfl

/-! ## Fields -/

/-- What the nodes under the name of a field make of it: without a node it stays as it is, and one
node fills it if it has been free. -/
inductive Settles {β : Type} (d : Document) (reader : Reader β) :
    List Node → Option β → Option β → Prop
  | keeps {x : Option β} : Settles d reader [] x x
  | fills {n : Node} {b : β} (h : reader d n = some b) : Settles d reader [n] none (some b)

theorem Settles.nil_iff {β : Type} {reader : Reader β} {x y : Option β} :
    Settles d reader [] x y ↔ x = y := by
  constructor
  · intro h
    cases h
    rfl
  · rintro rfl
    exact .keeps

theorem Settles.cons_none_iff {β : Type} {reader : Reader β} {n : Node} {ns : List Node}
    {y : Option β} :
    Settles d reader (n :: ns) none y ↔
      ∃ b, reader d n = some b ∧ Settles d reader ns (some b) y := by
  constructor
  · intro h
    cases h with
    | fills h => exact ⟨_, h, .keeps⟩
  · rintro ⟨b, hb, h⟩
    cases h with
    | keeps => exact .fills hb

theorem Settles.none_iff {β : Type} {reader : Reader β} {ns : List Node} {y : Option β} :
    Settles d reader ns none y ↔
      ns = [] ∧ y = none ∨ ∃ n b, ns = [n] ∧ reader d n = some b ∧ y = some b := by
  constructor
  · intro h
    cases h with
    | keeps => exact .inl ⟨rfl, rfl⟩
    | fills h => exact .inr ⟨_, _, rfl, h, rfl⟩
  · rintro (⟨rfl, rfl⟩ | ⟨n, b, rfl, h, rfl⟩)
    · exact .keeps
    · exact .fills h

theorem Settles.not_cons_some {β : Type} {reader : Reader β} {n : Node} {ns : List Node} {b : β}
    {y : Option β} : ¬ Settles d reader (n :: ns) (some b) y := by
  intro h
  cases h

/-- The fields of a record: the name and the reader of each. What has been read so far is nothing
but the fields, and a key either names one of them, which is read once, or is passed over. -/
structure Fields (ι : Type) [DecidableEq ι] (Value : ι → Type) {σ : Type}
    (member : String → σ → Member σ) where
  name : ι → String
  reader : (i : ι) → Reader (Value i)
  parts : σ ≃ ((i : ι) → Option (Value i))
  name_inj : Function.Injective name
  known : ∀ i s, member (name i) s = .once (parts s i) (reader i) fun b =>
    parts.symm (Function.update (parts s) i (some b))
  unknown : ∀ key s, (∀ i, key ≠ name i) → member key s = .unknown

namespace Fields

variable {ι σ : Type} [DecidableEq ι] {Value : ι → Type} {member : String → σ → Member σ}

/-- What has been read so far when a field has been read, too. -/
def put (fields : Fields ι Value member) (i : ι) (s : σ) (b : Value i) : σ :=
  fields.parts.symm (Function.update (fields.parts s) i (some b))

theorem parts_put (fields : Fields ι Value member) (i : ι) (s : σ) (b : Value i) :
    fields.parts (fields.put i s b) = Function.update (fields.parts s) i (some b) :=
  fields.parts.apply_symm_apply _

/-- Members settle all fields, each by the nodes under its own name. -/
def SettledBy (fields : Fields ι Value member) (d : Document) (ms : List (String × Node))
    (s t : σ) : Prop :=
  ∀ i, Settles d (fields.reader i) (nodesOf (fields.name i) ms) (fields.parts s i)
    (fields.parts t i)

variable {fields : Fields ι Value member} {i : ι} {n : Node} {ms : List (String × Node)} {s t : σ}

theorem settledBy_nil_iff : fields.SettledBy d [] s t ↔ s = t := by
  constructor
  · intro h
    apply fields.parts.injective
    funext i
    exact Settles.nil_iff.mp (h i)
  · rintro rfl i
    exact .keeps

/-- A member of a field that is free fills it. -/
theorem settledBy_cons_free_iff (hfree : fields.parts s i = none) :
    fields.SettledBy d ((fields.name i, n) :: ms) s t ↔
      ∃ b, fields.reader i d n = some b ∧ fields.SettledBy d ms (fields.put i s b) t := by
  have hname {j : ι} (hj : j ≠ i) : fields.name i ≠ fields.name j :=
    fun h => hj (fields.name_inj h.symm)
  constructor
  · intro h
    have hi := h i
    rw [nodesOf_cons_same, hfree, Settles.cons_none_iff] at hi
    obtain ⟨b, hb, hi⟩ := hi
    refine ⟨b, hb, fun j => ?_⟩
    -- the member is the first node of its own field and no node of another
    rw [fields.parts_put]
    by_cases hj : j = i
    · subst hj
      rw [Function.update_self]
      exact hi
    · have hother := h j
      rw [nodesOf_cons_other (hname hj)] at hother
      rw [Function.update_of_ne hj]
      exact hother
  · rintro ⟨b, hb, h⟩ j
    have hrest := h j
    rw [fields.parts_put] at hrest
    by_cases hj : j = i
    · subst hj
      rw [Function.update_self] at hrest
      rw [nodesOf_cons_same, hfree]
      exact Settles.cons_none_iff.mpr ⟨b, hb, hrest⟩
    · rw [Function.update_of_ne hj] at hrest
      rw [nodesOf_cons_other (hname hj)]
      exact hrest

/-- A member of a field that has been filled settles nothing. -/
theorem not_settledBy_cons_filled {b : Value i} (hfilled : fields.parts s i = some b) :
    ¬ fields.SettledBy d ((fields.name i, n) :: ms) s t := by
  intro h
  have hi := h i
  rw [nodesOf_cons_same, hfilled] at hi
  exact Settles.not_cons_some hi

/-- A member of no field does not matter. -/
theorem settledBy_cons_unknown_iff {key : String} (hkey : ∀ i, key ≠ fields.name i) :
    fields.SettledBy d ((key, n) :: ms) s t ↔ fields.SettledBy d ms s t := by
  simp only [SettledBy, nodesOf_cons_other (hkey _)]

/-! ## Reading -/

/-- One more entry is one more member. -/
theorem entries_cons_iff {k : Node} {key : String} (hkey : SaysText d k key)
    {es : List (Node × Node)}
    (hrest : ∀ s, Reader.entries member d es s = some t ↔ fields.SettledBy d ms s t) :
    Reader.entries member d ((k, n) :: es) s = some t ↔
      fields.SettledBy d ((key, n) :: ms) s t := by
  have hname : Reader.text d k = some key := Reader.text_eq_some_iff.mpr hkey
  simp only [Reader.entries, hname, Option.bind_eq_bind, Option.bind_some]
  by_cases hfield : ∃ i, key = fields.name i
  · obtain ⟨i, rfl⟩ := hfield
    rw [fields.known]
    cases hi : fields.parts s i with
    | none =>
      rw [settledBy_cons_free_iff hi]
      simp only [Member.once, Option.bind_eq_some_iff, Option.map_eq_some_iff]
      constructor
      · rintro ⟨_, ⟨b, hb, rfl⟩, h⟩
        exact ⟨b, hb, (hrest _).mp h⟩
      · rintro ⟨b, hb, h⟩
        exact ⟨_, ⟨b, hb, rfl⟩, (hrest _).mpr h⟩
    | some b =>
      simp only [Member.once, reduceCtorEq, false_iff]
      exact not_settledBy_cons_filled hi
  · rw [fields.unknown key s fun i h => hfield ⟨i, h⟩,
      settledBy_cons_unknown_iff fun i h => hfield ⟨i, h⟩]
    exact hrest s

/-- Entries that are members are read exactly as the members settle all fields. -/
theorem entries_eq_some_iff {es : List (Node × Node)} (h : List.Forall₂ (IsMember d) es ms) :
    Reader.entries member d es s = some t ↔ fields.SettledBy d ms s t := by
  induction h generalizing s with
  | nil => rw [Reader.entries, Option.some.injEq, settledBy_nil_iff]
  | @cons e m es ms hm _ ih =>
    obtain ⟨key, n⟩ := m
    obtain ⟨hkey, rfl⟩ := hm
    exact entries_cons_iff hkey fun _ => ih

/-- Entries that are read are members. -/
theorem exists_members_of_entries {es : List (Node × Node)}
    (h : Reader.entries member d es s = some t) : ∃ ms, List.Forall₂ (IsMember d) es ms := by
  induction es generalizing s with
  | nil => exact ⟨[], .nil⟩
  | cons e es ih =>
    obtain ⟨k, n⟩ := e
    obtain ⟨key, hkey, h⟩ := Option.bind_eq_some_iff.mp h
    have hrest : ∃ s', Reader.entries member d es s' = some t := by
      cases hmember : member key s with
      | unknown =>
        rw [hmember] at h
        exact ⟨s, h⟩
      | repeated =>
        rw [hmember] at h
        cases h
      | known value =>
        rw [hmember] at h
        obtain ⟨s', -, h⟩ := Option.bind_eq_some_iff.mp h
        exact ⟨s', h⟩
    obtain ⟨s', h⟩ := hrest
    obtain ⟨ms, hms⟩ := ih h
    exact ⟨(key, n) :: ms, .cons ⟨Reader.text_eq_some_iff.mp hkey, rfl⟩ hms⟩

/-- A node is read as a record exactly if its members settle all fields. -/
theorem record_eq_some_iff (fields : Fields ι Value member) {α : Type} {empty : σ}
    {complete : σ → α} {a : α} :
    Reader.record empty member complete d n = some a ↔
      ∃ ms t, Members d n ms ∧ fields.SettledBy d ms empty t ∧ complete t = a := by
  constructor
  · intro h
    unfold Reader.record at h
    split at h
    · rename_i es hes
      obtain ⟨t, ht, rfl⟩ := Option.map_eq_some_iff.mp h
      obtain ⟨ms, hms⟩ := exists_members_of_entries ht
      exact ⟨ms, t, .mapping hes hms, (entries_eq_some_iff hms).mp ht, rfl⟩
    · rename_i s hs
      split_ifs at h with hempty
      obtain rfl := Option.some.inj h
      exact ⟨[], empty, .blank hs hempty, settledBy_nil_iff.mpr rfl, rfl⟩
    · cases h
  · rintro ⟨ms, t, hms, ht, rfl⟩
    unfold Reader.record
    cases hms with
    | mapping h hms => simp only [h, (entries_eq_some_iff hms).mpr ht, Option.map_some]
    | blank h hs =>
      obtain rfl := settledBy_nil_iff.mp ht
      simp only [h, hs, if_true]

end Fields

end PayeeProposal.Yaml
