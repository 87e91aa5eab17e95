import PayeeProposal.Proofs.Resolution
import PayeeProposal.Proofs.Spelling

/-!
# What payees need of a deployment description

A description may be written in many ways, with entries of one name more than once and with members
that nobody reads. It is read all the same, and each name is bound to its last entry. The payees of
an aggregator need no more of it than the last entry of the aggregator and, of the last entries of
its oracles' operators, the first node address and the admin address. Two descriptions that agree
on these give the same payees, or fail for the same reason, whatever else is in them.
-/

namespace PayeeProposal

open Json (StringText ListText NamedText ValueText valuesOf Reads lastOf)
open PayeeInput (FieldText)

/-! ## Lists and tables -/

section Texts

variable {α : Type} {writes : List Char → α → Prop} {reader : Json.Reader α}

/-- A list whose items are written in some way. -/
def ListOf (writes : List Char → α → Prop) (text : List Char) (as : List α) : Prop :=
  ∃ items, ListText text items ∧ List.Forall₂ writes items as

/-- An object whose members are entries, their values written in some way; a name may come again. -/
def TableOf (writes : List Char → α → Prop) (text : List Char) (entries : List (String × α)) :
    Prop :=
  ∃ ms, NamedText text ms ∧ List.Forall₂ (fun m e => m.1 = e.1 ∧ writes m.2 e.2) ms entries

theorem ListOf.reads (hreads : ∀ text a, writes text a → Reads reader text (some a))
    {text : List Char} {as : List α} (h : ListOf writes text as) :
    Reads (Json.Reader.list reader) text (some as) := by
  obtain ⟨items, htext, hitems⟩ := h
  exact Json.reads_list_some htext (hitems.imp hreads)

theorem TableOf.reads (hreads : ∀ text a, writes text a → Reads reader text (some a))
    {text : List Char} {entries : List (String × α)} (h : TableOf writes text entries) :
    Reads (Json.Reader.table reader) text (some (Table.bindAll entries [])) := by
  obtain ⟨ms, htext, hms⟩ := h
  exact Json.reads_table htext (hms.imp fun m e h => ⟨h.1, hreads m.2 e.2 h.2⟩)

theorem listOf_compactList {write : α → List Char} (hwrite : ∀ a, writes (write a) a)
    (as : List α) : ListOf writes (Json.compactList (as.map write)) as :=
  ⟨_, Json.listText_compactList _,
    List.forall₂_map_left_iff.mpr (List.forall₂_same.mpr fun a _ => hwrite a)⟩

theorem tableOf_compactObject {write : α → List Char} (hwrite : ∀ a, writes (write a) a)
    (entries : List (String × α)) :
    TableOf writes (Json.compactObject (entries.map fun e => (e.1, write e.2))) entries :=
  ⟨_, Json.namedText_compactObject _,
    List.forall₂_map_left_iff.mpr (List.forall₂_same.mpr fun e _ => ⟨rfl, hwrite e.2⟩)⟩

end Texts

/-! ## Aggregators -/

namespace Aggregator

/-- What writes an oracle: an object that names its operator once, or a list of the name. -/
inductive OracleWritten : List Char → String → Prop
  | object {text t : List Char} {ms : List (String × List Char)} {name : String}
    (h : NamedText text ms) (ht : valuesOf ["operator"] ms = [t]) (htext : StringText t name)
    (hothers : ∀ m ∈ ms, m.1 ∉ ["operator"] → ValueText m.2) : OracleWritten text name
  | list {text t : List Char} {name : String} (h : ListText text [t]) (htext : StringText t name) :
    OracleWritten text name

/-- What writes an aggregator: an object or a list that has the oracles or, if there are none, may
lack them. -/
inductive Written : List Char → Aggregator → Prop
  | object {text : List Char} {ms : List (String × List Char)} {a : Aggregator}
    (h : NamedText text ms)
    (horacles : FieldText (ListOf OracleWritten) [] (valuesOf ["oracles"] ms) a.oracles)
    (hothers : ∀ m ∈ ms, m.1 ∉ ["oracles"] → ValueText m.2) : Written text a
  | list {text : List Char} {items : List (List Char)} {a : Aggregator} (h : ListText text items)
    (hlength : items.length ≤ 1) (horacles : FieldText (ListOf OracleWritten) [] items a.oracles) :
    Written text a

theorem oneField_oracle : Json.OneField oracleForm ["operator"] Json.Reader.string where
  empty := rfl
  known := by
    intro name hname x
    obtain rfl := List.mem_singleton.mp hname
    rfl
  unknown := by
    intro name hname x
    rw [List.mem_singleton] at hname
    simp only [oracleForm, if_neg hname]
  fields := ⟨_, rfl, fun _ _ => rfl⟩

theorem oneField : Json.OneField form ["oracles"]
    (Json.Reader.list (Json.Reader.record oracleForm)) where
  empty := rfl
  known := by
    intro name hname x
    obtain rfl := List.mem_singleton.mp hname
    rfl
  unknown := by
    intro name hname x
    rw [List.mem_singleton] at hname
    simp only [form, if_neg hname]
  fields := ⟨_, rfl, fun _ _ => rfl⟩

theorem OracleWritten.reads {text : List Char} {name : String} (h : OracleWritten text name) :
    Reads (Json.Reader.record oracleForm) text (some name) := by
  cases h with
  | object h ht htext hothers =>
    have hname := Json.settles_once (Json.reads_string htext)
    rw [← ht] at hname
    exact oneField_oracle.reads_members h hname hothers
  | list h htext =>
    have hname := Json.settles_once (Json.reads_string htext)
    exact oneField_oracle.reads_places h (Nat.le_refl 1) hname

theorem Written.reads {text : List Char} {a : Aggregator} (h : Written text a) :
    Reads (Json.Reader.record form) text (some a) := by
  obtain ⟨oracles⟩ := a
  cases h with
  | object h horacles hothers =>
    obtain ⟨x, hx, rfl⟩ := horacles.settles fun _ _ => ListOf.reads fun _ _ h => h.reads
    exact oneField.reads_members h hx hothers
  | list h hlength horacles =>
    obtain ⟨x, hx, rfl⟩ := horacles.settles fun _ _ => ListOf.reads fun _ _ h => h.reads
    exact oneField.reads_places h hlength hx

/-- An aggregator as a list of its oracles' lists, without space in it. -/
def compact (a : Aggregator) : List Char :=
  Json.compactList [Json.compactList
    (a.oracles.map fun name => Json.compactList [(Json.quote name).toList])]

theorem written_compact (a : Aggregator) : Written a.compact a := by
  have horacle : ∀ name,
      OracleWritten (Json.compactList [(Json.quote name).toList]) name := fun name =>
    .list (Json.listText_compactList _) (Json.stringText_quote name)
  exact .list (Json.listText_compactList _) (Nat.le_refl 1)
    (.present (listOf_compactList horacle a.oracles))

end Aggregator

/-! ## Operators -/

namespace Operator

/-- What writes an operator: an object or a list that has the admin address, and the node addresses
unless it is an object and there are none. -/
inductive Written : List Char → Operator → Prop
  | object {text t : List Char} {ms : List (String × List Char)} {o : Operator}
    (h : NamedText text ms)
    (hnodes : FieldText (ListOf StringText) [] (valuesOf ["ocrNodeAddress"] ms) o.nodeAddresses)
    (ht : valuesOf ["adminAddress"] ms = [t]) (htext : StringText t o.adminAddress)
    (hothers : ∀ m ∈ ms, m.1 ∉ ["ocrNodeAddress"] → m.1 ∉ ["adminAddress"] → ValueText m.2) :
    Written text o
  | list {text nodes t : List Char} {o : Operator} (h : ListText text [nodes, t])
    (hnodes : ListOf StringText nodes o.nodeAddresses) (htext : StringText t o.adminAddress) :
    Written text o

theorem twoFields : Json.TwoFields form Partial.mk ["ocrNodeAddress"] ["adminAddress"]
    (Json.Reader.list Json.Reader.string) Json.Reader.string where
  empty := rfl
  apart := by simp
  first := by
    intro name hname x y
    obtain rfl := List.mem_singleton.mp hname
    rfl
  second := by
    intro name hname x y
    obtain rfl := List.mem_singleton.mp hname
    rfl
  unknown := by
    intro name hname hname' x y
    simp only [List.mem_singleton] at hname hname'
    simp only [form, if_neg hname, if_neg hname']
  fields := ⟨_, _, rfl, fun _ _ _ => rfl, fun _ _ _ => rfl⟩

theorem Written.reads {text : List Char} {o : Operator} (h : Written text o) :
    Reads (Json.Reader.record form) text (some o) := by
  obtain ⟨nodes, admin⟩ := o
  cases h with
  | object h hnodes ht htext hothers =>
    obtain ⟨x, hx, rfl⟩ := hnodes.settles fun _ _ => ListOf.reads fun _ _ => Json.reads_string
    have hy := Json.settles_once (Json.reads_string htext)
    rw [← ht] at hy
    exact twoFields.reads_members h hx hy hothers
  | list h hnodes htext =>
    have hx := Json.settles_once (hnodes.reads fun _ _ => Json.reads_string)
    have hy := Json.settles_once (Json.reads_string htext)
    exact twoFields.reads_places h (Nat.le_refl 2) hx hy

/-- An operator as a list of its fields, without space in it. -/
def compact (o : Operator) : List Char :=
  Json.compactList [Json.compactList (o.nodeAddresses.map fun a => (Json.quote a).toList),
    (Json.quote o.adminAddress).toList]

theorem written_compact (o : Operator) : Written o.compact o :=
  .list (Json.listText_compactList _) (listOf_compactList Json.stringText_quote o.nodeAddresses)
    (Json.stringText_quote o.adminAddress)

/-- What payees need of an operator. -/
def seen (o : Operator) : Option String × String :=
  (o.nodeAddresses.head?, o.adminAddress)

end Operator

/-! ## Descriptions -/

namespace Deployment

/-- What writes a description of some entries: an object that has each section at most once, among
any other members. -/
def Written (text : List Char) (aggregators : List (String × Aggregator))
    (operators : List (String × Operator)) : Prop :=
  ∃ ms, NamedText text ms ∧
    FieldText (TableOf Aggregator.Written) [] (valuesOf ["contracts"] ms) aggregators ∧
    FieldText (TableOf Operator.Written) [] (valuesOf ["operators"] ms) operators ∧
    ∀ m ∈ ms, m.1 ∉ ["contracts"] → m.1 ∉ ["operators"] → ValueText m.2

/-- Entries agree on what an aggregator sees of them: its own last entry and, of the last entries of
its operators, what payees need. -/
structure AgreeFor (state : String) (aggregators aggregators' : List (String × Aggregator))
    (operators operators' : List (String × Operator)) : Prop where
  aggregator : lastOf aggregators state = lastOf aggregators' state
  operators : ∀ a, lastOf aggregators state = some a → ∀ oracle ∈ a.oracles,
    (lastOf operators oracle).map Operator.seen = (lastOf operators' oracle).map Operator.seen

theorem twoFields : Json.TwoFields form Partial.mk ["contracts"] ["operators"]
    (Json.Reader.table (Json.Reader.record Aggregator.form))
    (Json.Reader.table (Json.Reader.record Operator.form)) where
  empty := rfl
  apart := by simp
  first := by
    intro name hname x y
    obtain rfl := List.mem_singleton.mp hname
    rfl
  second := by
    intro name hname x y
    obtain rfl := List.mem_singleton.mp hname
    rfl
  unknown := by
    intro name hname hname' x y
    simp only [List.mem_singleton] at hname hname'
    simp only [form, if_neg hname, if_neg hname']
  fields := ⟨_, _, rfl, fun _ _ _ => rfl, fun _ _ _ => rfl⟩

/-! ### Reading -/

/-- A section is read as the table that its entries bind. -/
theorem section_settles {α : Type} {writes : List Char → α → Prop} {reader : Json.Reader α}
    (hreads : ∀ text a, writes text a → Reads reader text (some a)) {texts : List (List Char)}
    {entries : List (String × α)} (h : FieldText (TableOf writes) [] texts entries) :
    ∃ x, Json.Settles (Json.Reader.table reader) none texts (some x) ∧
      x.getD [] = Table.bindAll entries [] := by
  cases h with
  | absent => exact ⟨none, .nil, rfl⟩
  | present h => exact ⟨_, Json.settles_once (h.reads hreads), rfl⟩

variable {text : List Char} {aggregators : List (String × Aggregator)}
  {operators : List (String × Operator)}

theorem Written.reads (h : Written text aggregators operators) :
    Reads (Json.Reader.record form) text
      (some ⟨Table.bindAll aggregators [], Table.bindAll operators []⟩) := by
  obtain ⟨ms, htext, haggregators, hoperators, hothers⟩ := h
  obtain ⟨x, hx, hx'⟩ := section_settles (fun _ _ h => Aggregator.Written.reads h) haggregators
  obtain ⟨y, hy, hy'⟩ := section_settles (fun _ _ h => Operator.Written.reads h) hoperators
  rw [← hx', ← hy']
  exact twoFields.reads_members htext hx hy hothers

/-- A description of some entries without space in it. -/
def compact (aggregators : List (String × Aggregator)) (operators : List (String × Operator)) :
    List Char :=
  Json.compactObject
    [("contracts", Json.compactObject (aggregators.map fun e => (e.1, e.2.compact))),
      ("operators", Json.compactObject (operators.map fun e => (e.1, e.2.compact)))]

theorem written_compact (aggregators : List (String × Aggregator))
    (operators : List (String × Operator)) :
    Written (compact aggregators operators) aggregators operators :=
  ⟨_, Json.namedText_compactObject _,
    .present (tableOf_compactObject Aggregator.written_compact aggregators),
    .present (tableOf_compactObject Operator.written_compact operators), by simp⟩

/-- However a description is written, it is read, and the last entry of a name is what the name is
bound to. -/
theorem Written.ofJson_eq_ok (h : Written text aggregators operators) {s : String}
    (hs : Json.Around s text) :
    ∃ d, ofJson s = .ok d ∧ ∀ name, d.aggregators.lookup name = lastOf aggregators name ∧
      d.operators.lookup name = lastOf operators name := by
  have hlookup {α : Type} (entries : List (String × α)) (name : String) :
      (Table.bindAll entries []).lookup name = lastOf entries name := by
    rw [Json.lookup_bindAll, List.lookup_nil, Option.or_none]
  exact ⟨_, Json.parse_of_reads h.reads hs, fun _ => ⟨hlookup _ _, hlookup _ _⟩⟩

/-! ### What payees hang on -/

variable {d d' : Deployment} {state oracle : String}

/-- An assignment hangs on what is seen of the operator that its oracle names. -/
theorem assignment_congr
    (h : (d.operators.lookup oracle).map Operator.seen =
      (d'.operators.lookup oracle).map Operator.seen) :
    d.assignment state oracle = d'.assignment state oracle := by
  cases ho : d.operators.lookup oracle with
  | none =>
    rw [ho, Option.map_none, eq_comm, Option.map_eq_none_iff] at h
    rw [assignment_of_lookup_none ho, assignment_of_lookup_none h]
  | some operator =>
    rw [ho, Option.map_some, eq_comm, Option.map_eq_some_iff] at h
    obtain ⟨operator', ho', hseen⟩ := h
    obtain ⟨hnodes, hadmin⟩ := Prod.mk.inj hseen
    rw [assignment_of_lookup ho, assignment_of_lookup ho', hadmin]
    -- only the first node address of either list counts
    cases hn : operator.nodeAddresses <;> cases hn' : operator'.nodeAddresses <;>
      simp_all

/-- Payees hang on the aggregator and on what is seen of the operators of its oracles. -/
theorem payeeInput_congr (haggregator : d.aggregators.lookup state = d'.aggregators.lookup state)
    (hoperators : ∀ a, d.aggregators.lookup state = some a → ∀ oracle ∈ a.oracles,
      (d.operators.lookup oracle).map Operator.seen =
        (d'.operators.lookup oracle).map Operator.seen) :
    d.payeeInput state = d'.payeeInput state := by
  cases ha : d.aggregators.lookup state with
  | none => rw [payeeInput_of_lookup_none ha, payeeInput_of_lookup_none (haggregator ▸ ha)]
  | some a =>
    rw [payeeInput_of_lookup ha, payeeInput_of_lookup (haggregator ▸ ha),
      Traversal.mapM_congr fun oracle horacle => assignment_congr (hoperators a ha oracle horacle)]

/-- Any entries can be written as a description, under names that may come again. Any text that
writes them, with any space around it, is read, and binds each name to its last entry. Two texts
whose entries agree for an aggregator give it the same payees, or no payees for the same reason,
whatever else they hold. -/
theorem last_entries_decide :
    (∀ aggregators operators, ∃ text, Written text aggregators operators) ∧
      (∀ s text aggregators operators, Json.Around s text → Written text aggregators operators →
        ∃ d, ofJson s = .ok d ∧ ∀ name, d.aggregators.lookup name = lastOf aggregators name ∧
          d.operators.lookup name = lastOf operators name) ∧
      ∀ s text aggregators operators s' text' aggregators' operators',
        Json.Around s text → Written text aggregators operators →
        Json.Around s' text' → Written text' aggregators' operators' →
        ∃ d d', ofJson s = .ok d ∧ ofJson s' = .ok d' ∧
          ∀ state, AgreeFor state aggregators aggregators' operators operators' →
            d.payeeInput state = d'.payeeInput state := by
  refine ⟨fun _ _ => ⟨_, written_compact _ _⟩, fun s text _ _ hs h => h.ofJson_eq_ok hs, ?_⟩
  intro s text aggregators operators s' text' aggregators' operators' hs h hs' h'
  obtain ⟨d, hd, hlookup⟩ := h.ofJson_eq_ok hs
  obtain ⟨d', hd', hlookup'⟩ := h'.ofJson_eq_ok hs'
  refine ⟨d, d', hd, hd', fun state hagree => payeeInput_congr ?_ fun a ha oracle horacle => ?_⟩
  · rw [(hlookup state).1, (hlookup' state).1, hagree.aggregator]
  · rw [(hlookup oracle).2, (hlookup' oracle).2]
    exact hagree.operators a ((hlookup state).1 ▸ ha) oracle horacle

/-- An aggregator's first entry, another aggregator, an operator's first entry, and a second node
address do not matter. -/
theorem last_entries_decide_repeated :
    let s := "\x7b\"contracts\":\x7b\"S\":[[[\"x\"]]],\"S\":[[[\"o\"]]]\x7d," ++
      "\"operators\":\x7b\"o\":[[\"n\"],\"a\"]\x7d\x7d"
    let s' := "\x7b\"contracts\":\x7b\"S\":[[[\"o\"]]],\"T\":[[]]\x7d," ++
      "\"operators\":\x7b\"o\":[[],\"b\"],\"o\":[[\"n\",\"m\"],\"a\"]\x7d\x7d"
    let aggregators : List (String × Aggregator) := [("S", ⟨["x"]⟩), ("S", ⟨["o"]⟩)]
    let operators : List (String × Operator) := [("o", ⟨["n"], "a"⟩)]
    let aggregators' : List (String × Aggregator) := [("S", ⟨["o"]⟩), ("T", ⟨[]⟩)]
    let operators' : List (String × Operator) := [("o", ⟨[], "b"⟩), ("o", ⟨["n", "m"], "a"⟩)]
    Json.Around s s.toList ∧ Written s.toList aggregators operators ∧
      Json.Around s' s'.toList ∧ Written s'.toList aggregators' operators' ∧
      AgreeFor "S" aggregators aggregators' operators operators' ∧
      ∃ d d', ofJson s = .ok d ∧ ofJson s' = .ok d' ∧
        d.payeeInput "S" = .ok ⟨[⟨"n", "a"⟩], true⟩ ∧
        d'.payeeInput "S" = .ok ⟨[⟨"n", "a"⟩], true⟩ := by
  intro s s' aggregators operators aggregators' operators'
  have haround : ∀ s : String, Json.Around s s.toList := fun s =>
    ⟨[], [], Json.spaces_nil, Json.spaces_nil, by simp⟩
  have hwritten : Written s.toList aggregators operators := by
    rw [show s.toList = compact aggregators operators by decide]
    exact written_compact aggregators operators
  have hwritten' : Written s'.toList aggregators' operators' := by
    rw [show s'.toList = compact aggregators' operators' by decide]
    exact written_compact aggregators' operators'
  have hagree : AgreeFor "S" aggregators aggregators' operators operators' := by
    refine ⟨by decide, fun a ha oracle horacle => ?_⟩
    have hlast : lastOf aggregators "S" = some ⟨["o"]⟩ := by decide
    cases hlast.symm.trans ha
    obtain rfl := List.mem_singleton.mp horacle
    decide
  obtain ⟨d, d', hd, hd', hsame⟩ := last_entries_decide.2.2 s _ _ _ s' _ _ _ (haround s) hwritten
    (haround s') hwritten'
  have hpayees : d.payeeInput "S" = .ok ⟨[⟨"n", "a"⟩], true⟩ := by
    have hall : (ofJson s).map (fun d => d.payeeInput "S") = .ok (.ok ⟨[⟨"n", "a"⟩], true⟩) := by
      decide +kernel
    rw [hd] at hall
    exact Except.ok.inj hall
  exact ⟨haround s, hwritten, haround s', hwritten', hagree, d, d', hd, hd', hpayees,
    (hsame "S" hagree).symm.trans hpayees⟩

end Deployment

end PayeeProposal
