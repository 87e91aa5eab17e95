import PayeeProposal.Proofs.Fields
import PayeeProposal.Proofs.Trailing.Skip

/-!
# Space around a whole text

Readers give the same with and without space behind a text, since their parts do. A whole text may
end in space, and a record may be written behind space, so what a text holds is not changed by
space around it: the same record is read of both, or neither of them is a record's.
-/

namespace PayeeProposal.Json

variable {pad : List Char} {n : Nat}

section Readers

variable {α β γ σ : Type}

/-! ## Scalars and lists -/

theorem string_indifferent : Indifferent Reader.string := by
  intro pad hpad s n hs
  rcases skipSpace_cases hpad s with ⟨h, h'⟩ | ⟨c, r, h, h', hr⟩
  · simp only [Reader.string, h, h']
    exact .error _ _
  by_cases hquote : c = '\x22'
  · subst hquote
    simp only [Reader.string, h, h']
    exact text_alike hpad (by omega)
  · simp only [Reader.string, h, h', List.cons.injEq, hquote, false_and, imp_self, implies_true]
    exact .error _ _

theorem boolean_indifferent : Indifferent Reader.boolean := by
  intro pad hpad s n hs
  have hkeyword (b : Bool) {ks r : List Char} (hks : ∀ k ∈ ks, isSpace k = false)
      (hr : r.length < n) :
      Gives pad n ((keyword ks r).map (b, ·)) ((keyword ks (r ++ pad)).map (b, ·)) :=
    (keyword_alike hpad hks hr).map (fun _ => rfl) fun _ h => h
  rcases skipSpace_cases hpad s with ⟨h, h'⟩ | ⟨c, r, h, h', hr⟩
  · simp only [Reader.boolean, h, h']
    exact .error _ _
  by_cases htrue : c = 't'
  · subst htrue
    simp only [Reader.boolean, h, h']
    exact hkeyword true (by simp [isSpace]) (by omega)
  by_cases hfalse : c = 'f'
  · subst hfalse
    simp only [Reader.boolean, h, h']
    exact hkeyword false (by simp [isSpace]) (by omega)
  · simp only [Reader.boolean, h, h', List.cons.injEq, htrue, hfalse, false_and, imp_self,
      implies_true]
    exact .error _ _

theorem nextElement_alike (hpad : Spaces pad) (first : Bool) {s : List Char} (hs : s.length < n) :
    Gives pad n (nextElement first s) (nextElement first (s ++ pad)) := by
  rcases skipSpace_cases hpad s with ⟨h, h'⟩ | ⟨c, r, h, h', hr⟩
  · simp only [nextElement, h, h']
    exact .error _ _
  by_cases hclose : c = ']'
  · subst hclose
    simp only [nextElement, h, h']
    exact .ok (a := (false, r)) (by simp; omega)
  by_cases hcomma : c = ','
  · subst hcomma
    simp only [nextElement, h, h']
    split
    · exact .ok (a := (true, ',' :: r)) (by simp; omega)
    rcases skipSpace_cases hpad r with ⟨h, h'⟩ | ⟨d, t, h, h', ht⟩
    · simp only [h, h']
      exact .error _ _
    by_cases hclose : d = ']'
    · subst hclose
      simp only [h, h']
      exact .error _ _
    · simp only [h, h', List.cons.injEq, hclose, false_and, imp_self, implies_true]
      exact .ok (a := (true, d :: t)) (by simp; omega)
  · simp only [nextElement, h, h', List.cons.injEq, hclose, hcomma, false_and, imp_self,
      implies_true]
    split
    · exact .ok (a := (true, c :: r)) (by simp; omega)
    · exact .error _ _

/-- Elements are read alike when each of them is, with more steps than characters either way. -/
theorem elements_alike (hpad : Spaces pad) {element : Reader α} (helement : Indifferent element)
    (first : Bool) {s : List Char} (hs : s.length < n) {budget budget' : List Char}
    (hbudget : s.length < budget.length) (hbudget' : s.length + pad.length < budget'.length) :
    Gives pad n (elements element budget first s) (elements element budget' first (s ++ pad)) := by
  induction budget generalizing budget' first s with
  | nil => simp at hbudget
  | cons b budget ih =>
    obtain ⟨b', budget', rfl⟩ := List.exists_cons_of_length_pos (by omega : 0 < budget'.length)
    simp only [List.length_cons] at hbudget hbudget'
    refine (nextElement_alike hpad first (Nat.lt_succ_self s.length)).bind fun ⟨more, r⟩ hr => ?_
    cases more with
    | false => exact .ok (a := ([], r)) (by simp at hr ⊢; omega)
    | true =>
      refine (helement pad hpad r r.length (Nat.le_refl _)).bind fun ⟨a, t⟩ ht => ?_
      simp only at hr ht
      refine (ih false (by omega) (by omega) (by omega)).bind fun ⟨as, u⟩ hu => ?_
      exact .ok (a := (a :: as, u)) hu

theorem list_indifferent {element : Reader α} (helement : Indifferent element) :
    Indifferent (Reader.list element) := by
  intro pad hpad s n hs
  rcases skipSpace_cases hpad s with ⟨h, h'⟩ | ⟨c, r, h, h', hr⟩
  · simp only [Reader.list, h, h']
    exact .error _ _
  by_cases hopen : c = '['
  · subst hopen
    simp only [Reader.list, h, h']
    exact elements_alike hpad helement true (by omega) (by simp) (by simp)
  · simp only [Reader.list, h, h', List.cons.injEq, hopen, false_and, imp_self, implies_true]
    exact .error _ _

/-! ## Records -/

theorem nextName_alike (hpad : Spaces pad) (first : Bool) {s : List Char} (hs : s.length ≤ n) :
    Gives pad n (nextName first s) (nextName first (s ++ pad)) := by
  have hname {r : List Char} (hr : r.length < n) :
      Gives pad n ((text r).map fun p => (some p.1, p.2))
        ((text (r ++ pad)).map fun p => (some p.1, p.2)) :=
    (text_alike hpad (Nat.le_of_lt hr)).map (fun _ => rfl) fun _ h => h
  rcases skipSpace_cases hpad s with ⟨h, h'⟩ | ⟨c, r, h, h', hr⟩
  · simp only [nextName, h, h']
    exact .error _ _
  by_cases hclose : c = '\x7d'
  · subst hclose
    simp only [nextName, h, h']
    exact .ok (a := (none, r)) (by simp; omega)
  by_cases hcomma : c = ','
  · subst hcomma
    simp only [nextName, h, h']
    split
    · exact .error _ _
    rcases skipSpace_cases hpad r with ⟨h, h'⟩ | ⟨d, t, h, h', ht⟩
    · simp only [h, h']
      exact .error _ _
    by_cases hquote : d = '\x22'
    · subst hquote
      simp only [h, h']
      exact hname (by omega)
    · simp only [h, h', List.cons.injEq, hquote, false_and, imp_self, implies_true]
      exact .error _ _
  by_cases hquote : c = '\x22'
  · subst hquote
    simp only [nextName, h, h']
    split
    · exact hname (by omega)
    · exact .error _ _
  · simp only [nextName, h, h', List.cons.injEq, hclose, hcomma, hquote, false_and, imp_self,
      implies_true]
    exact .error _ _

theorem colon_alike (hpad : Spaces pad) {s : List Char} (hs : s.length ≤ n) :
    Leaves pad n (colon s) (colon (s ++ pad)) := by
  rcases skipSpace_cases hpad s with ⟨h, h'⟩ | ⟨c, r, h, h', hr⟩
  · simp only [colon, h, h']
    exact .error _ _
  by_cases hcolon : c = ':'
  · subst hcolon
    simp only [colon, h, h']
    exact .ok (by omega)
  · simp only [colon, h, h', List.cons.injEq, hcolon, false_and, imp_self, implies_true]
    exact .error _ _

/-- Members are read alike when each value that is wanted is, with more steps than characters
either way. -/
theorem members_alike (hpad : Spaces pad) {member : String → σ → Member σ}
    (hmember : ∀ name s value, member name s = .known value → Indifferent value) (first : Bool)
    (sofar : σ) {s : List Char} (hs : s.length < n) {budget budget' : List Char}
    (hbudget : s.length < budget.length) (hbudget' : s.length + pad.length < budget'.length) :
    Gives pad n (members member budget first sofar s)
      (members member budget' first sofar (s ++ pad)) := by
  induction budget generalizing budget' first sofar s with
  | nil => simp at hbudget
  | cons b budget ih =>
    obtain ⟨b', budget', rfl⟩ := List.exists_cons_of_length_pos (by omega : 0 < budget'.length)
    simp only [List.length_cons] at hbudget hbudget'
    refine (nextName_alike hpad first (Nat.le_refl s.length)).bind fun ⟨name, r⟩ hr => ?_
    simp only at hr
    cases name with
    | none => exact .ok (a := (sofar, r)) (by simp; omega)
    | some name =>
      cases hm : member name sofar with
      | repeated =>
        simp only [hm]
        exact .error _ _
      | unknown =>
        simp only [hm]
        refine (colon_alike hpad (Nat.le_refl r.length)).bind fun t ht => ?_
        refine (skipValue_alike hpad ht).bind fun u hu => ?_
        exact ih false sofar (by omega) (by omega) (by omega)
      | known value =>
        simp only [hm]
        refine (colon_alike hpad (Nat.le_refl r.length)).bind fun t ht => ?_
        refine (hmember _ _ _ hm pad hpad t t.length (Nat.le_refl _)).bind fun ⟨sofar, u⟩ hu => ?_
        simp only at hu
        exact ih false sofar (s := u) (by omega) (by omega) (by omega)

theorem closeList_alike (hpad : Spaces pad) {s : List Char} (hs : s.length ≤ n) :
    Leaves pad n (closeList s) (closeList (s ++ pad)) := by
  rcases skipSpace_cases hpad s with ⟨h, h'⟩ | ⟨c, r, h, h', hr⟩
  · simp only [closeList, h, h']
    exact .error _ _
  by_cases hclose : c = ']'
  · subst hclose
    simp only [closeList, h, h']
    exact .ok (by omega)
  · simp only [closeList, h, h', List.cons.injEq, hclose, false_and, imp_self, implies_true]
    exact .error _ _

theorem positions_alike (hpad : Spaces pad) {fields : List (σ → Reader σ)}
    (hfields : ∀ field ∈ fields, ∀ s, Indifferent (field s)) (first : Bool) (sofar : σ)
    {s : List Char} (hs : s.length < n) :
    Gives pad n (positions fields first sofar s) (positions fields first sofar (s ++ pad)) := by
  induction fields generalizing first sofar s with
  | nil => exact (closeList_alike hpad (Nat.le_of_lt hs)).map (fun _ => rfl) fun _ h => h
  | cons field fields ih =>
    refine (nextElement_alike hpad first hs).bind fun ⟨more, r⟩ hr => ?_
    cases more with
    | false => exact .ok (a := (sofar, r)) hr
    | true =>
      have hfield := hfields field (by simp) sofar pad hpad r n (Nat.le_of_lt hr)
      refine hfield.bind fun ⟨sofar, t⟩ ht => ?_
      exact ih (fun f hf => hfields f (by simp [hf])) false sofar ht

/-- The values of a record's members and fields are read alike. -/
structure RecordForm.Indifferent (form : RecordForm σ α) : Prop where
  member : ∀ name s value, form.member name s = .known value → Json.Indifferent value
  fields : ∀ field ∈ form.fields, ∀ s, Json.Indifferent (field s)

theorem record_indifferent {form : RecordForm σ α} (hform : form.Indifferent) :
    Indifferent (Reader.record form) := by
  intro pad hpad s n hs
  rcases skipSpace_cases hpad s with ⟨h, h'⟩ | ⟨c, r, h, h', hr⟩
  · simp only [Reader.record, h, h']
    exact .error _ _
  have hlt : r.length < n := by omega
  by_cases hobject : c = '\x7b'
  · subst hobject
    simp only [Reader.record, h, h']
    refine (members_alike hpad hform.member true form.empty hlt (by simp) (by simp)).bind
      fun p ht => ?_
    obtain ⟨partly, t⟩ := p
    cases form.complete partly with
    | none => exact .error _ _
    | some a => exact .ok (a := (a, t)) ht
  by_cases hlist : c = '['
  · subst hlist
    simp only [Reader.record, h, h']
    refine (positions_alike hpad hform.fields true form.empty hlt).bind fun p ht => ?_
    obtain ⟨partly, t⟩ := p
    cases form.complete partly with
    | none => exact .error _ _
    | some a => exact .ok (a := (a, t)) ht
  · simp only [Reader.record, h, h', List.cons.injEq, hobject, hlist, false_and, imp_self,
      implies_true]
    exact .error _ _

theorem map_indifferent {reader : Reader α} (h : Indifferent reader) (put : α → β) :
    Indifferent fun s => (reader s).map fun (a, r) => (put a, r) :=
  fun pad hpad s n hs => (h pad hpad s n hs).map (fun _ => rfl) fun _ h => h

theorem once_indifferent {reader : Reader β} (h : Indifferent reader) {present : Option β}
    {put : β → σ} {value : Reader σ} (hknown : Member.once present reader put = .known value) :
    Indifferent value := by
  cases present with
  | some b => cases hknown
  | none =>
    cases hknown
    exact map_indifferent h put

/-- A record of two fields is read alike when both of them are. -/
theorem TwoFields.indifferent {form : RecordForm σ α} {partly : Option β → Option γ → σ}
    {names names' : List String} {reader : Reader β} {reader' : Reader γ}
    (hform : TwoFields form partly names names' reader reader')
    (hpartly : ∀ s, ∃ x y, partly x y = s) (h : Indifferent reader) (h' : Indifferent reader') :
    form.Indifferent where
  member := by
    intro name s value hknown
    obtain ⟨x, y, rfl⟩ := hpartly s
    by_cases hname : name ∈ names
    · rw [hform.first name hname] at hknown
      exact once_indifferent h hknown
    by_cases hname' : name ∈ names'
    · rw [hform.second name hname'] at hknown
      exact once_indifferent h' hknown
    · rw [hform.unknown name hname hname'] at hknown
      cases hknown
  fields := by
    obtain ⟨put, put', hfields, -, -⟩ := hform.fields
    intro field hfield s
    rw [hfields, List.mem_cons, List.mem_singleton] at hfield
    rcases hfield with rfl | rfl
    · exact map_indifferent h (put s)
    · exact map_indifferent h' (put' s)

/-! ## Whole texts -/

theorem record_spaces_append (form : RecordForm σ α) {space : List Char} (hspace : Spaces space)
    (s : List Char) : Reader.record form (space ++ s) = Reader.record form s := by
  unfold Reader.record
  rw [skipSpace_append hspace]

/-- Space around a text leaves the record that it holds, or leaves it without one. -/
theorem parse_around {form : RecordForm σ α} (hform : form.Indifferent) {s t : String}
    (hs : Around s t.toList) :
    Alike id (fun _ => True) (parse (Reader.record form) t) (parse (Reader.record form) s) := by
  obtain ⟨before, after, hbefore, hafter, htext⟩ := hs
  unfold parse
  rw [htext, record_spaces_append form hbefore]
  refine (record_indifferent hform after hafter t.toList _ (Nat.le_refl _)).bind fun ⟨a, r⟩ _ => ?_
  rcases skipSpace_cases hafter r with ⟨h, h'⟩ | ⟨c, u, h, h', -⟩
  · simp only [h, h']
    exact .ok trivial
  · simp only [h, h']
    exact .error _ _

end Readers

end PayeeProposal.Json
