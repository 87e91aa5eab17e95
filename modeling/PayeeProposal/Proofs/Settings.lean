import PayeeProposal.Proofs.Mappings

/-!
# Settings in a tree of mappings

A setting stands at the end of a path of names. Following the path, one either comes to a node that
says the setting or to a record that lacks the next name, and then the setting has its fallback.
A reader of records does this for each setting on its own: that is so of a record whose fields are
read, because it is so of each field, however deep records are nested.
-/

namespace PayeeProposal.Yaml

/-! ## Paths -/

/-- The node at the top of a document. -/
def Document.top (d : Document) : Node :=
  d.root.getD Node.empty

/-- Where a path of names leads from a node. Each node on the way that is not the last is a record
that has the next name once, or the path leads nowhere because the record does not have it. -/
inductive Leads (d : Document) : Node → List String → Option Node → Prop
  | here {n : Node} : Leads d n [] (some n)
  | nowhere {n : Node} {name : String} {path : List String} {ms : List (String × Node)}
    (hms : Members d n ms) (hname : nodesOf name ms = []) : Leads d n (name :: path) none
  | along {n m : Node} {name : String} {path : List String} {ms : List (String × Node)}
    {o : Option Node} (hms : Members d n ms) (hname : nodesOf name ms = [m])
    (hrest : Leads d m path o) : Leads d n (name :: path) o

variable {d : Document} {n m : Node} {name : String} {path rest : List String}
  {ms : List (String × Node)}

theorem Leads.exists_members {o : Option Node} (h : Leads d n (name :: path) o) :
    ∃ ms, Members d n ms := by
  cases h with
  | nowhere hms => exact ⟨_, hms⟩
  | along hms => exact ⟨_, hms⟩

theorem leads_cons_iff (hms : Members d n ms) {o : Option Node} :
    Leads d n (name :: path) o ↔
      nodesOf name ms = [] ∧ o = none ∨ ∃ m, nodesOf name ms = [m] ∧ Leads d m path o := by
  constructor
  · intro h
    cases h with
    | nowhere hms' hname =>
      obtain rfl := hms.unique hms'
      exact .inl ⟨hname, rfl⟩
    | along hms' hname hrest =>
      obtain rfl := hms.unique hms'
      exact .inr ⟨_, hname, hrest⟩
  · rintro (⟨hname, rfl⟩ | ⟨m, hname, hrest⟩)
    · exact .nowhere hms hname
    · exact .along hms hname hrest

/-- Where a path leads nowhere, no longer one leads anywhere. -/
theorem Leads.nowhere_append (h : Leads d n path none) : Leads d n (path ++ rest) none := by
  -- the induction is on the way, whose end has to be a variable for it
  generalize ho : (none : Option Node) = o at h
  induction h with
  | here => cases ho
  | nowhere hms hname => exact .nowhere hms hname
  | along hms hname _ ih => exact .along hms hname (ih ho)

theorem Leads.append {o : Option Node} (h : Leads d n path (some m)) (hrest : Leads d m rest o) :
    Leads d n (path ++ rest) o := by
  generalize hm : some m = p at h
  induction h with
  | here =>
    obtain rfl := Option.some.inj hm
    exact hrest
  | nowhere => cases hm
  | along hms hname _ ih => exact .along hms hname (ih hm)

/-! ## Settings -/

/-- A setting of values of some type: the path to it, what says it there, its fallback, and what a
value has it at. -/
structure Setting (α : Type) where
  Value : Type
  path : List String
  Says : Document → Node → Value → Prop
  fallback : Value
  get : α → Value

namespace Setting

variable {α β : Type}

/-- What is written for a setting below a node, if anything is. -/
def Written (x : Setting α) (d : Document) (n : Node) (o : Option x.Value) : Prop :=
  ∃ p, Leads d n x.path p ∧ Option.Rel (x.Says d) p o

/-- The whole value as its only setting. -/
def whole (Says : Document → Node → β → Prop) (fallback : β) : Setting β :=
  ⟨β, [], Says, fallback, id⟩

/-- A setting of a part of a value, below the name of the part. -/
def within (name : String) (part : α → β) (x : Setting β) : Setting α :=
  ⟨x.Value, name :: x.path, x.Says, x.fallback, fun a => x.get (part a)⟩

theorem written_whole_iff {Says : Document → Node → β → Prop} {fallback : β} {o : Option β} :
    (whole Says fallback).Written d n o ↔ ∃ b, Says d n b ∧ o = some b := by
  constructor
  · rintro ⟨p, hp, ho⟩
    cases hp
    cases ho with
    | some hb => exact ⟨_, hb, rfl⟩
  · rintro ⟨b, hb, rfl⟩
    exact ⟨some n, .here, .some hb⟩

theorem written_within_iff (hms : Members d n ms) {part : α → β} {x : Setting β}
    {o : Option x.Value} :
    (x.within name part).Written d n o ↔
      nodesOf name ms = [] ∧ o = none ∨ ∃ m, nodesOf name ms = [m] ∧ x.Written d m o := by
  constructor
  · rintro ⟨p, hp, ho⟩
    rcases (leads_cons_iff hms).mp hp with ⟨hname, rfl⟩ | ⟨m, hname, hp⟩
    · cases ho
      exact .inl ⟨hname, rfl⟩
    · exact .inr ⟨m, hname, p, hp, ho⟩
  · rintro (⟨hname, rfl⟩ | ⟨m, hname, p, hp, ho⟩)
    · exact ⟨none, .nowhere hms hname, .none⟩
    · exact ⟨p, .along hms hname hp, ho⟩

theorem exists_members_of_written {part : α → β} {x : Setting β} {o : Option x.Value}
    (h : (x.within name part).Written d n o) : ∃ ms, Members d n ms := by
  obtain ⟨p, hp, -⟩ := h
  exact hp.exists_members

end Setting

/-! ## Readers -/

/-- A reader does what some settings say: it reads a node exactly if each of them is written in
some way or absent, and what it reads has each at what is written, or at its fallback. -/
structure Follows {α : Type} (reader : Reader α) (settings : List (Setting α)) : Prop where
  reads : ∀ d n, (∀ x ∈ settings, ∃ o, x.Written d n o) → ∃ a, reader d n = some a
  written : ∀ d n a, reader d n = some a → ∀ x ∈ settings, ∃ o, x.Written d n o
  holds : ∀ d n a, reader d n = some a → ∀ x ∈ settings, ∀ o, x.Written d n o →
    x.get a = o.getD x.fallback

/-- What a field of a record is where it is missing, and the settings that its reader follows. -/
structure Slot {β : Type} (reader : Reader β) where
  base : β
  settings : List (Setting β)
  settings_ne_nil : settings ≠ []
  follows : Follows reader settings
  get_base : ∀ x ∈ settings, x.get base = x.fallback

/-- A reader of single values follows its one setting. -/
theorem follows_whole {β : Type} {reader : Reader β} {Says : Document → Node → β → Prop}
    (h : ∀ {d n b}, reader d n = some b ↔ Says d n b) (fallback : β) :
    Follows reader [.whole Says fallback] where
  reads := by
    intro d n hwritten
    obtain ⟨o, ho⟩ := hwritten _ (List.mem_singleton.mpr rfl)
    obtain ⟨b, hb, -⟩ := Setting.written_whole_iff.mp ho
    exact ⟨b, h.mpr hb⟩
  written := by
    intro d n b hb x hx
    obtain rfl := List.mem_singleton.mp hx
    exact ⟨some b, Setting.written_whole_iff.mpr ⟨b, h.mp hb, rfl⟩⟩
  holds := by
    intro d n b hb x hx o ho
    obtain rfl := List.mem_singleton.mp hx
    obtain ⟨b', hb', rfl⟩ := Setting.written_whole_iff.mp ho
    exact Option.some.inj (hb.symm.trans (h.mpr hb'))

/-- A field that is a setting itself. -/
def Slot.single {β : Type} (base : β) {reader : Reader β}
    {Says : Document → Node → β → Prop} (h : ∀ {d n b}, reader d n = some b ↔ Says d n b) :
    Slot reader where
  base := base
  settings := [.whole Says base]
  settings_ne_nil := List.cons_ne_nil _ _
  follows := follows_whole h base
  get_base := by
    intro x hx
    obtain rfl := List.mem_singleton.mp hx
    rfl

/-! ## Records -/

/-- How a record is made of its fields. -/
structure Plan {ι σ α : Type} [DecidableEq ι] [Inhabited ι] {Value : ι → Type}
    {member : String → σ → Member σ} (fields : Fields ι Value member) (empty : σ)
    (complete : σ → α) where
  order : List ι
  slot : (i : ι) → Slot (fields.reader i)
  part : (i : ι) → α → Value i
  mem_order : ∀ i, i ∈ order
  free : ∀ i, fields.parts empty i = none
  part_complete : ∀ s i, part i (complete s) = (fields.parts s i).getD (slot i).base

namespace Plan

variable {ι σ α : Type} [DecidableEq ι] [Inhabited ι] {Value : ι → Type}
  {member : String → σ → Member σ} {fields : Fields ι Value member} {empty : σ}
  {complete : σ → α}

/-- All settings of the record, in the order of its fields. -/
def all (plan : Plan fields empty complete) : List (Setting α) :=
  plan.order.flatMap fun i =>
    (plan.slot i).settings.map (Setting.within (fields.name i) (plan.part i))

variable {plan : Plan fields empty complete}

theorem mem_all_iff {x : Setting α} :
    x ∈ plan.all ↔
      ∃ i, ∃ y ∈ (plan.slot i).settings, y.within (fields.name i) (plan.part i) = x := by
  simp only [all, List.mem_flatMap, List.mem_map]
  constructor
  · rintro ⟨i, -, h⟩
    exact ⟨i, h⟩
  · rintro ⟨i, h⟩
    exact ⟨i, plan.mem_order i, h⟩

/-- Of each field there is a setting. -/
theorem exists_mem_all (plan : Plan fields empty complete) (i : ι) :
    ∃ y ∈ (plan.slot i).settings, y.within (fields.name i) (plan.part i) ∈ plan.all := by
  obtain ⟨y, hy⟩ := List.exists_mem_of_ne_nil _ (plan.slot i).settings_ne_nil
  exact ⟨y, hy, mem_all_iff.mpr ⟨i, y, hy, rfl⟩⟩

/-- What the nodes under the name of a field make of it, as nothing has been read before. -/
theorem settles_free (plan : Plan fields empty complete) {t : σ}
    (h : fields.SettledBy d ms empty t) (i : ι) :
    nodesOf (fields.name i) ms = [] ∧ fields.parts t i = none ∨
      ∃ m b, nodesOf (fields.name i) ms = [m] ∧ (fields.reader i) d m = some b ∧
        fields.parts t i = some b := by
  have hi := h i
  rw [plan.free] at hi
  exact Settles.none_iff.mp hi

/-- The nodes under the name of a field settle it when all settings are written. -/
theorem exists_settles (hms : Members d n ms)
    (hwritten : ∀ x ∈ plan.all, ∃ o, x.Written d n o) (i : ι) :
    ∃ y, Settles d (fields.reader i) (nodesOf (fields.name i) ms) none y := by
  -- any one setting of the field tells whether the field is there
  obtain ⟨x, -, hx⟩ := plan.exists_mem_all i
  obtain ⟨o, ho⟩ := hwritten _ hx
  rcases (Setting.written_within_iff hms).mp ho with ⟨hname, -⟩ | ⟨m, hname, -⟩
  · rw [hname]
    exact ⟨none, .keeps⟩
  · have hbelow : ∀ x ∈ (plan.slot i).settings, ∃ o, x.Written d m o := by
      intro x hx
      obtain ⟨o, ho⟩ := hwritten _ (mem_all_iff.mpr ⟨i, x, hx, rfl⟩)
      rcases (Setting.written_within_iff hms).mp ho with ⟨hnone, -⟩ | ⟨m', hm', h⟩
      · rw [hname] at hnone
        cases hnone
      · rw [hname] at hm'
        obtain rfl := (List.cons.inj hm').1
        exact ⟨o, h⟩
    obtain ⟨b, hb⟩ := (plan.slot i).follows.reads d m hbelow
    rw [hname]
    exact ⟨some b, .fills hb⟩

/-- A record follows the settings of its fields, because each field follows its own. -/
theorem follows_all (plan : Plan fields empty complete) :
    Follows (Reader.record empty member complete) plan.all where
  reads := by
    intro d n hwritten
    obtain ⟨x, -, hx⟩ := plan.exists_mem_all default
    obtain ⟨o, ho⟩ := hwritten _ hx
    obtain ⟨ms, hms⟩ := Setting.exists_members_of_written ho
    -- the fields do not hang on each other, so what each is read as makes up a whole
    choose values hvalues using exists_settles hms hwritten
    have hsettled : fields.SettledBy d ms empty (fields.parts.symm values) := by
      intro i
      rw [plan.free, Equiv.apply_symm_apply]
      exact hvalues i
    exact ⟨_, fields.record_eq_some_iff.mpr ⟨ms, _, hms, hsettled, rfl⟩⟩
  written := by
    intro d n a ha x hx
    obtain ⟨ms, t, hms, ht, rfl⟩ := fields.record_eq_some_iff.mp ha
    obtain ⟨i, y, hy, rfl⟩ := mem_all_iff.mp hx
    rcases plan.settles_free ht i with ⟨hname, -⟩ | ⟨m, b, hname, hb, -⟩
    · exact ⟨none, (Setting.written_within_iff hms).mpr (.inl ⟨hname, rfl⟩)⟩
    · obtain ⟨o, ho⟩ := (plan.slot i).follows.written d m b hb y hy
      exact ⟨o, (Setting.written_within_iff hms).mpr (.inr ⟨m, hname, ho⟩)⟩
  holds := by
    intro d n a ha x hx o ho
    obtain ⟨ms, t, hms, ht, rfl⟩ := fields.record_eq_some_iff.mp ha
    obtain ⟨i, y, hy, rfl⟩ := mem_all_iff.mp hx
    change y.get (plan.part i (complete t)) = o.getD y.fallback
    rw [plan.part_complete]
    rcases plan.settles_free ht i with ⟨hname, hi⟩ | ⟨m, b, hname, hb, hi⟩
    · rcases (Setting.written_within_iff hms).mp ho with ⟨-, rfl⟩ | ⟨m, hm, -⟩
      · rw [hi]
        exact (plan.slot i).get_base y hy
      · rw [hname] at hm
        cases hm
    · rcases (Setting.written_within_iff hms).mp ho with ⟨hnone, -⟩ | ⟨m', hm, h⟩
      · rw [hname] at hnone
        cases hnone
      · rw [hname] at hm
        obtain rfl := (List.cons.inj hm).1
        rw [hi]
        exact (plan.slot i).follows.holds d m b hb y hy o h

/-- A value has all settings at their fallbacks if its fields are as where they are missing. -/
theorem get_of_parts (plan : Plan fields empty complete) {a : α}
    (h : ∀ i, plan.part i a = (plan.slot i).base) : ∀ x ∈ plan.all, x.get a = x.fallback := by
  intro x hx
  obtain ⟨i, y, hy, rfl⟩ := mem_all_iff.mp hx
  change y.get (plan.part i a) = y.fallback
  rw [h i]
  exact (plan.slot i).get_base y hy

/-- A field that is a record itself. Where it is missing, it is as if all of its own fields were. -/
def toSlot (plan : Plan fields empty complete) (base : α)
    (h : ∀ i, plan.part i base = (plan.slot i).base) :
    Slot (Reader.record empty member complete) where
  base := base
  settings := plan.all
  settings_ne_nil := by
    obtain ⟨_, -, hx⟩ := plan.exists_mem_all default
    exact List.ne_nil_of_mem hx
  follows := plan.follows_all
  get_base := plan.get_of_parts h

end Plan

end PayeeProposal.Yaml
