import Mathlib.Data.List.Nodup
import PayeeProposal.Builder
import PayeeProposal.Proofs.Base58
import PayeeProposal.Proofs.Traversal

/-!
# The table of payees

An input has a table exactly when all its texts are addresses and no transmitter is there twice,
and then the table gives a transmitter the payee that some assignment gives it. Which transmitters
are there twice, and what the table says, does not hang on the order of the assignments.
-/

namespace PayeeProposal

/-! ## What assignments say -/

/-- The two texts of an assignment denote a transmitter and a payee. -/
def Assignment.Denotes (a : Assignment) (e : Address × Address) : Prop :=
  Address.parseTrimmed a.transmitter = .ok e.1 ∧ Address.parseTrimmed a.payee = .ok e.2

namespace PayeeInput

/-- All texts are addresses. -/
def WellFormed (input : PayeeInput) : Prop :=
  ∀ a ∈ input.operators, ∃ e, a.Denotes e

/-- No two assignments are for the same transmitter. -/
def Distinct (input : PayeeInput) : Prop :=
  input.operators.Pairwise fun a b =>
    ∀ t, Address.parseTrimmed a.transmitter = .ok t → Address.parseTrimmed b.transmitter ≠ .ok t

/-- Some assignment gives a transmitter a payee. -/
def Assigns (input : PayeeInput) (transmitter payee : Address) : Prop :=
  ∃ a ∈ input.operators, a.Denotes (transmitter, payee)

/-- The texts as they are read: assignment by assignment, the transmitter first. -/
def texts (input : PayeeInput) : List String :=
  input.operators.flatMap fun a => [a.transmitter, a.payee]

/-- The first text that is no address. -/
def FirstMalformed (input : PayeeInput) (text : String) (error : AddressError) : Prop :=
  ∃ before after, input.texts = before ++ text :: after ∧
    (∀ t ∈ before, ∃ a, Address.parseTrimmed t = .ok a) ∧ Address.parseTrimmed text = .error error

/-- A text of some assignment that is no address. -/
def Malformed (input : PayeeInput) (text : String) (error : AddressError) : Prop :=
  (∃ a ∈ input.operators, text = a.transmitter ∨ text = a.payee) ∧
    Address.parseTrimmed text = .error error

end PayeeInput

theorem PayeeInput.FirstMalformed.malformed {input : PayeeInput} {text : String}
    {error : AddressError} (h : input.FirstMalformed text error) : input.Malformed text error := by
  obtain ⟨before, after, hsplit, -, herror⟩ := h
  have hmem : text ∈ input.texts := by simp [hsplit]
  obtain ⟨a, ha, htext⟩ := List.mem_flatMap.mp hmem
  exact ⟨⟨a, ha, List.mem_pair.mp htext⟩, herror⟩

theorem PayeeInput.WellFormed.not_malformed {input : PayeeInput} (h : input.WellFormed)
    (text : String) (error : AddressError) : ¬ input.Malformed text error := by
  rintro ⟨⟨a, ha, htext⟩, herror⟩
  obtain ⟨e, ht, hp⟩ := h a ha
  rcases htext with rfl | rfl
  · cases ht.symm.trans herror
  · cases hp.symm.trans herror

theorem Address.require_eq_ok_iff {s : String} {a : Address} :
    Address.require s = .ok a ↔ Address.parseTrimmed s = .ok a := by
  unfold Address.require
  cases Address.parseTrimmed s <;> simp [Except.mapError]

theorem Address.require_eq_error_iff {s : String} {e : ProposeError} :
    Address.require s = .error e ↔
      ∃ reason, Address.parseTrimmed s = .error reason ∧ e = .invalidAddress s reason := by
  unfold Address.require
  cases Address.parseTrimmed s <;> simp [Except.mapError, eq_comm]

namespace PayeeTable

open Traversal

theorem parse_eq_ok_iff {a : Assignment} {e : Address × Address} :
    parse a = .ok e ↔ a.Denotes e := by
  unfold parse Assignment.Denotes
  rw [bind_eq_ok]
  constructor
  · rintro ⟨t, ht, h⟩
    obtain ⟨p, hp, h⟩ := bind_eq_ok.mp h
    cases Except.ok.inj h
    exact ⟨Address.require_eq_ok_iff.mp ht, Address.require_eq_ok_iff.mp hp⟩
  · rintro ⟨ht, hp⟩
    refine ⟨e.1, Address.require_eq_ok_iff.mpr ht, bind_eq_ok.mpr ?_⟩
    exact ⟨e.2, Address.require_eq_ok_iff.mpr hp, rfl⟩

/-- Assignments are read text by text. -/
theorem mapM_parse_eq_error_iff {operators : List Assignment} {e : ProposeError} :
    operators.mapM parse = .error e ↔
      (operators.flatMap fun a => [a.transmitter, a.payee]).mapM Address.require = .error e := by
  induction operators with
  | nil => exact ⟨nofun, nofun⟩
  | cons a operators ih =>
    rw [List.flatMap_cons, List.cons_append, List.cons_append, List.nil_append, List.mapM_cons,
      List.mapM_cons, List.mapM_cons]
    cases ht : Address.require a.transmitter with
    | error et =>
      have hparse : parse a = .error et := bind_eq_error.mpr (.inl ht)
      simp [hparse, bind, Except.bind]
    | ok t =>
      cases hp : Address.require a.payee with
      | error ep =>
        have hparse : parse a = .error ep :=
          bind_eq_error.mpr (.inr ⟨t, ht, bind_eq_error.mpr (.inl hp)⟩)
        simp [hparse, bind, Except.bind]
      | ok p =>
        have hparse : parse a = .ok (t, p) :=
          parse_eq_ok_iff.mpr ⟨Address.require_eq_ok_iff.mp ht, Address.require_eq_ok_iff.mp hp⟩
        rw [hparse]
        -- both readings go on to the same rest, and only keep what they have read so far
        refine bind_pure_eq_error.trans (ih.trans (Iff.symm ?_))
        exact bind_pure_eq_error.trans bind_pure_eq_error

/-! ## Addresses that come again -/

/-- The addresses that come again after their first place in a list, each once, in the order in
which they come for the second time; `seen` and `found` are what has been met before. -/
def repeatedFrom (seen found : List Address) : List Address → List Address
  | [] => found
  | a :: as =>
    if seen.contains a then
      repeatedFrom seen (if found.contains a then found else found ++ [a]) as
    else repeatedFrom (a :: seen) found as

/-- The addresses that a list has more than once. -/
def repeated (as : List Address) : List Address :=
  repeatedFrom [] [] as

/-- What has been met before is found again, and the rest is found when it comes twice. -/
theorem mem_repeatedFrom {a : Address} (seen found as : List Address) :
    a ∈ repeatedFrom seen found as ↔
      a ∈ found ∨ (a ∈ seen ∧ a ∈ as) ∨ 2 ≤ as.count a := by
  induction as generalizing seen found with
  | nil => simp [repeatedFrom]
  | cons b as ih =>
    unfold repeatedFrom
    rw [List.count_cons]
    -- an address met before is found at its second place; a new one is only kept in mind
    by_cases hseen : b ∈ seen
    · rw [if_pos (by simpa using hseen), ih]
      by_cases hab : b = a
      · subst hab
        by_cases hfound : b ∈ found <;> simp [hseen, hfound]
      · by_cases hfound : b ∈ found <;> simp [hfound, hab, Ne.symm hab]
    · rw [if_neg (by simpa using hseen), ih]
      by_cases hab : b = a
      · subst hab
        have hpos : 0 < as.count b ↔ b ∈ as := List.count_pos_iff
        simp only [hseen, List.mem_cons, true_or, true_and, false_and, false_or, beq_self_eq_true,
          if_true]
        rw [← hpos]
        exact or_congr_right (by omega)
      · simp [hab, Ne.symm hab]

theorem nodup_repeatedFrom (seen : List Address) {found : List Address} (as : List Address)
    (h : found.Nodup) : (repeatedFrom seen found as).Nodup := by
  induction as generalizing seen found with
  | nil => exact h
  | cons b as ih =>
    unfold repeatedFrom
    split
    · by_cases hb : b ∈ found
      · simpa [hb] using ih seen h
      · have happ : (found ++ [b]).Nodup := by
          rw [List.nodup_append]
          exact ⟨h, by simp, by grind⟩
        simpa [hb] using ih seen happ
    · exact ih _ h

theorem mem_repeated_iff {a : Address} {as : List Address} :
    a ∈ repeated as ↔ 2 ≤ as.count a := by
  simp [repeated, mem_repeatedFrom]

theorem nodup_repeated (as : List Address) : (repeated as).Nodup :=
  nodup_repeatedFrom [] as List.nodup_nil

theorem repeated_eq_nil_iff {as : List Address} : repeated as = [] ↔ as.Nodup := by
  rw [List.eq_nil_iff_forall_not_mem, List.nodup_iff_count_le_one]
  simp only [mem_repeated_iff]
  exact forall_congr' fun a => by omega

/-- Which addresses come again does not hang on the order. -/
theorem perm_repeated {as bs : List Address} (h : as.Perm bs) :
    (repeated as).Perm (repeated bs) := by
  rw [List.perm_ext_iff_of_nodup (nodup_repeated as) (nodup_repeated bs)]
  intro a
  rw [mem_repeated_iff, mem_repeated_iff, h.count_eq]

/-! ## Entering assignments -/

theorem contains_texts (as : List Address) (a : Address) :
    (as.map Address.text).contains a.text = as.contains a := by
  rw [Bool.eq_iff_iff, List.contains_iff_mem, List.contains_iff_mem]
  exact List.mem_map_of_injective fun _ _ => Address.text_inj

/-- The loop over assignments binds all entries, and notes a transmitter when it is in the table
already and has not been noted; the table's keys are what the loop has seen. -/
theorem enter_of_denotes {operators : List Assignment} {entries : PayeeTable}
    (h : List.Forall₂ Assignment.Denotes operators entries) (table : PayeeTable)
    {seen : List Address} (found : List Address)
    (hseen : ∀ t, (table.lookup t).isSome = seen.contains t) :
    enter table (found.map Address.text) operators =
      .ok (Table.bindAll entries table,
        (repeatedFrom seen found (entries.map Prod.fst)).map Address.text) := by
  induction h generalizing table seen found with
  | nil => rfl
  | @cons a e operators entries ha _ ih =>
    obtain ⟨transmitter, payee⟩ := e
    have hkeys : ∀ t, ((Table.rebind transmitter payee table).lookup t).isSome =
        (transmitter :: seen).contains t := by
      intro t
      rw [Table.lookup_rebind, List.contains_cons, ← hseen]
      by_cases ht : t = transmitter <;> simp [ht]
    rw [enter, parse_eq_ok_iff.mpr ha, ok_bind, List.map_cons, repeatedFrom]
    simp only [hseen, contains_texts]
    cases hmet : seen.contains transmitter with
    | false => exact ih _ found hkeys
    | true =>
      have hsame : ∀ t, (transmitter :: seen).contains t = seen.contains t := by
        intro t
        rw [List.contains_cons]
        by_cases ht : t = transmitter
        · rw [ht, hmet, Bool.or_true]
        · rw [beq_eq_false_iff_ne.mpr ht, Bool.false_or]
      have hkeys := fun t => (hkeys t).trans (hsame t)
      cases found.contains transmitter with
      | true => exact ih _ found hkeys
      | false =>
        have hnoted := ih _ (found ++ [transmitter]) hkeys
        rw [List.map_append] at hnoted
        exact hnoted

theorem enter_of_parse_error {operators : List Assignment} {e : ProposeError}
    (h : operators.mapM parse = .error e) (table : PayeeTable) (again : List String) :
    enter table again operators = .error e := by
  induction operators generalizing table again with
  | nil => cases h
  | cons a operators ih =>
    rw [List.mapM_cons] at h
    rcases bind_eq_error.mp h with h | ⟨entry, hentry, h⟩
    · rw [enter, h, error_bind]
    · rw [enter, hentry, ok_bind]
      exact ih (bind_pure_eq_error.mp h) _ _

/-! ## The table of an input -/

theorem lookup_eq_some_iff {table : PayeeTable} (h : (table.map Prod.fst).Nodup)
    {t p : Address} : table.lookup t = some p ↔ (t, p) ∈ table := by
  induction table with
  | nil => simp
  | cons e table ih =>
    obtain ⟨t', p'⟩ := e
    simp only [List.map_cons, List.nodup_cons] at h
    by_cases ht : t = t'
    · subst ht
      have hnot : (t, p) ∉ table := fun hp => h.1 (List.mem_map.mpr ⟨_, hp, rfl⟩)
      simp [hnot, eq_comm]
    · have hbeq : (t == t') = false := by simpa using ht
      simp [List.lookup_cons, hbeq, ht, ih h.2]

theorem mapM_parse_eq_ok_iff {operators : List Assignment} {table : PayeeTable} :
    operators.mapM parse = .ok table ↔ List.Forall₂ Assignment.Denotes operators table := by
  simp only [mapM_eq_ok_iff, parse_eq_ok_iff]

/-- Where all texts are addresses, only the keys that come again stand in the way. -/
theorem ofInput_of_denotes {input : PayeeInput} {table : PayeeTable}
    (h : List.Forall₂ Assignment.Denotes input.operators table) :
    ofInput input =
      if (table.map Prod.fst).Nodup then .ok table
      else .error (.validation .duplicateTransmitters
        ((repeated (table.map Prod.fst)).map Address.text)) := by
  have henter : enter [] [] input.operators =
      .ok (Table.bindAll table [], (repeated (table.map Prod.fst)).map Address.text) :=
    enter_of_denotes h [] [] fun _ => rfl
  rw [ofInput, henter, ok_bind]
  by_cases hnodup : (table.map Prod.fst).Nodup
  · have hbind : Table.bindAll table [] = table :=
      Table.bindAll_of_nodup (show (([] ++ table).map Prod.fst).Nodup from hnodup)
    rw [if_pos hnodup, repeated_eq_nil_iff.mpr hnodup, hbind]
    rfl
  · have hnonempty : ((repeated (table.map Prod.fst)).map Address.text).isEmpty = false := by
      simpa [repeated_eq_nil_iff] using hnodup
    simp only [hnonempty, if_neg hnodup, Bool.false_eq_true, if_false]

theorem exists_denotes_iff {input : PayeeInput} :
    (∃ table, List.Forall₂ Assignment.Denotes input.operators table) ↔ input.WellFormed := by
  simp only [← mapM_parse_eq_ok_iff, exists_mapM_eq_ok_iff, parse_eq_ok_iff]
  rfl

theorem ofInput_of_parse_error {input : PayeeInput} {e : ProposeError}
    (h : input.operators.mapM parse = .error e) : ofInput input = .error e := by
  rw [ofInput, enter_of_parse_error h, error_bind]

/-- The first text that is no address is named before anything is said of keys that come again. -/
theorem ofInput_of_firstMalformed {input : PayeeInput} (h : ¬ input.WellFormed) :
    ∃ text reason, input.FirstMalformed text reason ∧
      ofInput input = .error (.invalidAddress text reason) := by
  cases hm : input.operators.mapM parse with
  | ok table => exact absurd (exists_denotes_iff.mp ⟨table, mapM_parse_eq_ok_iff.mp hm⟩) h
  | error e =>
    obtain ⟨before, text, after, hsplit, hbefore, htext⟩ :=
      mapM_eq_error_iff.mp (mapM_parse_eq_error_iff.mp hm)
    obtain ⟨reason, hreason, rfl⟩ := Address.require_eq_error_iff.mp htext
    refine ⟨text, reason, ⟨before, after, hsplit, ?_, hreason⟩, ?_⟩
    · intro t ht
      obtain ⟨a, ha⟩ := hbefore t ht
      exact ⟨a, Address.require_eq_ok_iff.mp ha⟩
    · exact ofInput_of_parse_error hm

theorem ofInput_of_not_wellFormed {input : PayeeInput} (h : ¬ input.WellFormed) :
    ∃ text reason, input.Malformed text reason ∧
      ofInput input = .error (.invalidAddress text reason) := by
  obtain ⟨text, reason, hfirst, herror⟩ := ofInput_of_firstMalformed h
  exact ⟨text, reason, hfirst.malformed, herror⟩

theorem ofInput_eq_ok_iff {input : PayeeInput} {table : PayeeTable} :
    ofInput input = .ok table ↔
      List.Forall₂ Assignment.Denotes input.operators table ∧ (table.map Prod.fst).Nodup := by
  constructor
  · intro h
    have hwell : input.WellFormed := by
      by_contra hnot
      obtain ⟨text, reason, -, herror⟩ := ofInput_of_not_wellFormed hnot
      rw [h] at herror
      cases herror
    obtain ⟨read, hread⟩ := exists_denotes_iff.mpr hwell
    rw [ofInput_of_denotes hread] at h
    split at h
    · rename_i hnodup
      cases Except.ok.inj h
      exact ⟨hread, hnodup⟩
    · cases h
  · rintro ⟨hread, hnodup⟩
    rw [ofInput_of_denotes hread, if_pos hnodup]

theorem ofInput_eq_error {input : PayeeInput} {e : ProposeError} (h : ofInput input = .error e) :
    (∃ text reason, e = .invalidAddress text reason) ∨
      ∃ again, e = .validation .duplicateTransmitters again := by
  by_cases hwell : input.WellFormed
  · obtain ⟨table, hread⟩ := exists_denotes_iff.mpr hwell
    rw [ofInput_of_denotes hread] at h
    split at h
    · cases h
    · exact .inr ⟨_, (Except.error.inj h).symm⟩
  · obtain ⟨text, reason, -, herror⟩ := ofInput_of_not_wellFormed hwell
    exact .inl ⟨text, reason, Except.error.inj (h.symm.trans herror)⟩

/-- Reading the assignments turns different transmitters into different keys and back. -/
theorem distinct_iff {input : PayeeInput} {table : PayeeTable}
    (h : List.Forall₂ Assignment.Denotes input.operators table) :
    input.Distinct ↔ (table.map Prod.fst).Nodup := by
  unfold PayeeInput.Distinct
  generalize input.operators = operators at h
  induction h with
  | nil => simp
  | @cons a e as table ha has ih =>
    rw [List.pairwise_cons, List.map_cons, List.nodup_cons, ih]
    refine and_congr_left fun _ => ?_
    -- the first key comes again exactly when a later assignment denotes the same transmitter
    constructor
    · intro hall hmem
      obtain ⟨e', he', heq⟩ := List.mem_map.mp hmem
      obtain ⟨b, hb, hbe⟩ := exists_of_mem_right has he'
      exact hall b hb e.1 ha.1 (heq ▸ hbe.1)
    · intro hnot b hb t hat hbt
      obtain ⟨e', he', hbe⟩ := exists_of_mem_left has hb
      have ht : t = e.1 := Except.ok.inj (hat.symm.trans ha.1)
      have ht' : t = e'.1 := Except.ok.inj (hbt.symm.trans hbe.1)
      exact hnot (List.mem_map.mpr ⟨e', he', by rw [← ht', ht]⟩)

/-- An input has a table exactly when its texts are addresses and its transmitters differ. -/
theorem exists_ofInput_eq_ok_iff {input : PayeeInput} :
    (∃ table, ofInput input = .ok table) ↔ input.WellFormed ∧ input.Distinct := by
  rw [← exists_denotes_iff]
  constructor
  · rintro ⟨table, h⟩
    obtain ⟨hread, hnodup⟩ := ofInput_eq_ok_iff.mp h
    exact ⟨⟨table, hread⟩, (distinct_iff hread).mpr hnodup⟩
  · rintro ⟨⟨table, hread⟩, hdistinct⟩
    exact ⟨table, ofInput_eq_ok_iff.mpr ⟨hread, (distinct_iff hread).mp hdistinct⟩⟩

theorem lookup_ofInput {input : PayeeInput} {table : PayeeTable} (h : ofInput input = .ok table)
    {t p : Address} : table.lookup t = some p ↔ input.Assigns t p := by
  obtain ⟨hread, hnodup⟩ := ofInput_eq_ok_iff.mp h
  rw [lookup_eq_some_iff hnodup]
  constructor
  · intro hmem
    exact exists_of_mem_right hread hmem
  · rintro ⟨a, ha, hat, hap⟩
    obtain ⟨e, he, het, hep⟩ := exists_of_mem_left hread ha
    have ht : t = e.1 := Except.ok.inj (hat.symm.trans het)
    have hp : p = e.2 := Except.ok.inj (hap.symm.trans hep)
    rw [ht, hp]
    exact he

/-! ## Payees in the order of transmitters -/

theorem order_eq_ok_iff {table : PayeeTable} {transmitters payees : List Address} :
    table.order transmitters = .ok payees ↔
      List.Forall₂ (fun t p => table.lookup t = some p) transmitters payees := by
  unfold order
  rw [mapM_eq_ok_iff]
  constructor
  · intro h
    refine h.imp fun t p ht => ?_
    cases hl : table.lookup t with
    | none => simp [hl] at ht
    | some payee => simpa [hl] using ht
  · intro h
    refine h.imp fun t p ht => ?_
    simp [ht]

/-- Ordering fails for the first transmitter that has no payee. -/
theorem order_eq_error {table : PayeeTable} {transmitters : List Address} {e : ProposeError}
    (h : table.order transmitters = .error e) :
    ∃ before t after, transmitters = before ++ t :: after ∧
      (∀ u ∈ before, ∃ payee, table.lookup u = some payee) ∧ table.lookup t = none ∧
      e = .missingPayee t := by
  obtain ⟨before, t, after, hsplit, hbefore, ht⟩ := mapM_eq_error_iff.mp h
  refine ⟨before, t, after, hsplit, ?_, ?_⟩
  · intro u hu
    obtain ⟨payee, hpayee⟩ := hbefore u hu
    cases hl : table.lookup u with
    | none => simp [hl] at hpayee
    | some payee' => exact ⟨payee', rfl⟩
  · cases hl : table.lookup t with
    | none => simpa [hl, eq_comm] using ht
    | some payee => simp [hl] at ht

theorem order_congr {table table' : PayeeTable} {transmitters : List Address}
    (h : ∀ t ∈ transmitters, table.lookup t = table'.lookup t) :
    table.order transmitters = table'.order transmitters := by
  unfold order
  induction transmitters with
  | nil => rfl
  | cons t ts ih =>
    rw [List.mapM_cons, List.mapM_cons, h t List.mem_cons_self,
      ih fun u hu => h u (List.mem_cons_of_mem t hu)]

end PayeeTable

end PayeeProposal
