import PayeeProposal.Json.Reader
import PayeeProposal.Proofs.Skipping
import PayeeProposal.Text.Blank

/-!
# Typed reading of all spellings

What a reader gives for a text hangs on what the grammar says of the text, and on no spelling: a
list is read item by item, and a record member by member or field by field. A text whose values are
of the wanted types is read, or refused for what its members are; either way this is so with any
space before it and whatever may stand behind it.
-/

namespace PayeeProposal.Json

section Readers

variable {α β σ : Type}

/-- A value with what is left of the text, or a mismatch. -/
def given (o : Option α) (rest : List Char) : Except Failure (α × List Char) :=
  match o with
  | some a => .ok (a, rest)
  | none => .error .mistyped

/-- A reader gives a value for a text, or refuses it for its type. -/
structure Reads (reader : Reader α) (text : List Char) (o : Option α) : Prop where
  opens : Opens text
  read : ∀ space rest, Spaces space → Ends rest →
    reader (space ++ (text ++ rest)) = given o rest

theorem Reads.read_here {reader : Reader α} {text : List Char} {o : Option α}
    (h : Reads reader text o) {rest : List Char} (hrest : Ends rest) :
    reader (text ++ rest) = given o rest :=
  h.read [] rest spaces_nil hrest

/-- A reader gives one outcome for a text. -/
theorem Reads.unique {reader : Reader α} {text : List Char} {o o' : Option α}
    (h : Reads reader text o) (h' : Reads reader text o') : o = o' := by
  have hgiven : given o [] = given o' [] :=
    (h.read_here ends_nil).symm.trans (h'.read_here ends_nil)
  cases o <;> cases o' <;> simp_all [given]

theorem reads_map {reader : Reader α} {text : List Char} {o : Option α} (h : Reads reader text o)
    (put : α → β) :
    Reads (fun s => (reader s).map fun (a, r) => (put a, r)) text (o.map put) where
  opens := h.opens
  read := by
    intro space rest hspace hrest
    rw [h.read space rest hspace hrest]
    cases o <;> rfl

/-! ## Scalars -/

theorem reads_string {text : List Char} {s : String} (h : StringText text s) :
    Reads Reader.string text (some s) := by
  obtain ⟨ws, hws, rfl⟩ := h
  refine ⟨opens_cons rfl (by decide) (by decide) _, fun space rest hspace _ => ?_⟩
  rw [Reader.string, List.cons_append, skipSpace_spaces_append hspace rfl, List.append_assoc]
  exact text_letters hws rest

theorem reads_boolean {text : List Char} {b : Bool} (h : BooleanText text b) :
    Reads Reader.boolean text (some b) := by
  cases h with
  | yes =>
    refine ⟨opens_cons rfl (by decide) (by decide) _, fun space rest hspace _ => ?_⟩
    rw [Reader.boolean, List.cons_append, skipSpace_spaces_append hspace rfl]
    rfl
  | no =>
    refine ⟨opens_cons rfl (by decide) (by decide) _, fun space rest hspace _ => ?_⟩
    rw [Reader.boolean, List.cons_append, skipSpace_spaces_append hspace rfl]
    rfl

/-! ## Lists -/

theorem Lead.append {first : Bool} {lead space : List Char} (h : Lead first lead)
    (hspace : Spaces space) : Lead first (lead ++ space) := by
  have happend {s : List Char} (hs : Spaces s) : Spaces (s ++ space) := by
    intro c hc
    rcases List.mem_append.mp hc with hc | hc
    · exact hs c hc
    · exact hspace c hc
  cases h with
  | first hs => exact .first (happend hs)
  | next hs ht =>
    rw [List.append_assoc, List.cons_append]
    exact .next hs (happend ht)

theorem Items.length_le {first : Bool} {inner : List Char} {items : List (List Char)}
    (h : Items first inner items) (hopens : ∀ item ∈ items, Opens item) :
    items.length ≤ inner.length := by
  induction h with
  | nil => simp
  | @cons first lead item inner items _ _ ih =>
    obtain ⟨c, cs, rfl, -⟩ := hopens item (by simp)
    have hrest := ih fun i hi => hopens i (by simp [hi])
    simp
    omega

theorem nextElement_close (first : Bool) {space : List Char} (h : Spaces space)
    (rest : List Char) : nextElement first (space ++ ']' :: rest) = .ok (false, rest) := by
  rw [nextElement, skipSpace_spaces_append h rfl]
  rfl

theorem nextElement_lead {first : Bool} {lead item : List Char} (hlead : Lead first lead)
    (hitem : Opens item) (rest : List Char) :
    nextElement first (lead ++ (item ++ rest)) = .ok (true, item ++ rest) := by
  obtain ⟨c, cs, rfl, hspace, hclose, hcomma⟩ := hitem
  cases hlead with
  | first hs =>
    rw [List.cons_append, nextElement, skipSpace_spaces_append hs hspace]
    simp [hclose, hcomma]
  | @next s t hs ht =>
    have hskip : skipSpace (t ++ c :: (cs ++ rest)) = c :: (cs ++ rest) :=
      skipSpace_spaces_append ht hspace _
    rw [List.append_assoc, List.cons_append, List.cons_append, nextElement,
      skipSpace_spaces_append hs rfl]
    simp [hskip, hclose]

/-- Items are read one after another, up to the first one that is refused. -/
theorem elements_items {element : Reader α} {first : Bool} {inner : List Char}
    {items : List (List Char)} {os : List (Option α)} (h : Items first inner items)
    (hitems : List.Forall₂ (Reads element) items os) (budget : List Char)
    (hbudget : items.length < budget.length) (rest : List Char) :
    elements element budget first (inner ++ ']' :: rest) = given (os.mapM id) rest := by
  -- an item takes a step and at least a character, so the budget outlasts the items
  induction h generalizing os budget with
  | @nil first s hs =>
    cases hitems
    obtain ⟨b, budget, rfl⟩ := List.exists_cons_of_length_pos (by omega : 0 < budget.length)
    simp only [elements, nextElement_close first hs]
    rfl
  | @cons first lead item inner items hlead hinner ih =>
    cases hitems with
    | @cons _ o _ os hitem hitems =>
      obtain ⟨b, budget, rfl⟩ := List.exists_cons_of_length_pos (by omega : 0 < budget.length)
      have hrest := ih hitems budget (by simpa using hbudget)
      have hread := hitem.read_here (hinner.ends (.inl rfl) rest)
      rw [List.append_assoc, List.append_assoc]
      simp only [elements, nextElement_lead hlead hitem.opens, bind, Except.bind, hread]
      cases o with
      | none => rfl
      | some a =>
        simp only [given, hrest, List.mapM_cons, id, Option.bind_eq_bind, Option.bind_some]
        cases os.mapM id <;> rfl

/-- A list is read item by item. -/
theorem reads_list {element : Reader α} {text : List Char} {items : List (List Char)}
    {os : List (Option α)} (h : ListText text items)
    (hitems : List.Forall₂ (Reads element) items os) :
    Reads (Reader.list element) text (os.mapM id) := by
  obtain ⟨inner, hinner, rfl⟩ := h
  refine ⟨opens_cons rfl (by decide) (by decide) _, fun space rest hspace _ => ?_⟩
  have hlength := hinner.length_le fun item hitem =>
    let ⟨_, _, hreads⟩ := Traversal.exists_of_mem_left hitems hitem
    hreads.opens
  rw [Reader.list, List.cons_append, skipSpace_spaces_append hspace rfl, List.append_assoc]
  refine elements_items hinner hitems _ ?_ rest
  simp
  omega

theorem reads_list_some {element : Reader α} {text : List Char} {items : List (List Char)}
    {as : List α} (h : ListText text items)
    (hitems : List.Forall₂ (fun item a => Reads element item (some a)) items as) :
    Reads (Reader.list element) text (some as) := by
  have hmap : List.Forall₂ (Reads element) items (as.map some) :=
    List.forall₂_map_right_iff.mpr hitems
  have hall : (as.map some).mapM id = some (as.map id) :=
    Traversal.mapM_map_eq_some fun _ _ => rfl
  rw [List.map_id] at hall
  exact hall ▸ reads_list h hmap

theorem mapM_id_eq_none {os : List (Option α)} (h : none ∈ os) : os.mapM id = none := by
  induction os with
  | nil => cases h
  | cons o os ih =>
    rcases List.mem_cons.mp h with rfl | h
    · rfl
    · rw [List.mapM_cons, ih h]
      cases o <;> rfl

/-- A list is refused when one of its items is. -/
theorem reads_list_none {element : Reader α} {text : List Char} {items : List (List Char)}
    (h : ListText text items) (hitems : ∀ item ∈ items, ∃ o, Reads element item o)
    (hnone : ∃ item ∈ items, Reads element item none) :
    Reads (Reader.list element) text none := by
  choose! f hf using hitems
  have hmap : List.Forall₂ (Reads element) items (items.map f) :=
    List.forall₂_map_right_iff.mpr (List.forall₂_same.mpr hf)
  obtain ⟨item, hitem, hread⟩ := hnone
  have hmem : none ∈ items.map f := List.mem_map.mpr ⟨item, hitem, (hf item hitem).unique hread⟩
  exact mapM_id_eq_none hmem ▸ reads_list h hmap

/-! ## Objects -/

/-- What a member makes of what an object has given so far. -/
inductive Takes (member : String → σ → Member σ) (s : σ) (m : String × List Char) :
    Option σ → Prop
  | unknown (h : member m.1 s = .unknown) (hvalue : ValueText m.2) : Takes member s m (some s)
  | repeated (h : member m.1 s = .repeated) : Takes member s m none
  | known {value : Reader σ} {o : Option σ} (h : member m.1 s = .known value)
    (hvalue : Reads value m.2 o) : Takes member s m o

/-- What members make of what an object has given so far, up to the first one that is refused. -/
inductive TakesAll (member : String → σ → Member σ) :
    σ → List (String × List Char) → Option σ → Prop
  | nil {s : σ} : TakesAll member s [] (some s)
  | refused {s : σ} {m : String × List Char} {ms : List (String × List Char)}
    (h : Takes member s m none) : TakesAll member s (m :: ms) none
  | cons {s t : σ} {m : String × List Char} {ms : List (String × List Char)} {o : Option σ}
    (h : Takes member s m (some t)) (hrest : TakesAll member t ms o) :
    TakesAll member s (m :: ms) o

theorem opens_member {item ws value : List Char} (h : MemberText item ws value) : Opens item := by
  obtain ⟨s, t, -, -, rfl⟩ := h
  exact opens_cons rfl (by decide) (by decide) _

theorem nextName_close (first : Bool) {space : List Char} (h : Spaces space) (rest : List Char) :
    nextName first (space ++ '\x7d' :: rest) = .ok (none, rest) := by
  rw [nextName, skipSpace_spaces_append h rfl]
  rfl

/-- The name of a member is read, and what is left is its colon and its value. -/
theorem nextName_lead {first : Bool} {lead item ws value : List Char} {name : String}
    (hlead : Lead first lead) (hname : Letters ws name.toList) (h : MemberText item ws value)
    (rest : List Char) :
    ∃ r space, Spaces space ∧ nextName first (lead ++ (item ++ rest)) = .ok (some name, r) ∧
      colon r = .ok (space ++ (value ++ rest)) := by
  obtain ⟨s, t, hs, ht, rfl⟩ := h
  refine ⟨s ++ ':' :: (t ++ (value ++ rest)), t, ht, ?_, ?_⟩
  · have htext := text_letters hname (s ++ ':' :: (t ++ (value ++ rest)))
    simp only [List.cons_append, List.append_assoc]
    cases hlead with
    | first hs =>
      rw [nextName, skipSpace_spaces_append hs rfl]
      simp only [htext]
      rfl
    | @next u v hu hv =>
      have hskip : ∀ cs, skipSpace (v ++ '\x22' :: cs) = '\x22' :: cs :=
        skipSpace_spaces_append hv rfl
      rw [List.append_assoc, List.cons_append, nextName, skipSpace_spaces_append hu rfl]
      simp only [hskip, htext]
      rfl
  · rw [colon, skipSpace_spaces_append hs rfl]
    rfl

/-- Members are read one after another, up to the first one that is refused. -/
theorem members_items {member : String → σ → Member σ} {first : Bool} {inner : List Char}
    {items : List (List Char)} {ms : List (String × List Char)} (h : Items first inner items)
    (hitems : List.Forall₂ (fun item m => ∃ ws, Letters ws m.1.toList ∧ MemberText item ws m.2)
      items ms) {s : σ} {o : Option σ} (ho : TakesAll member s ms o) (budget : List Char)
    (hbudget : items.length < budget.length) (rest : List Char) :
    members member budget first s (inner ++ '\x7d' :: rest) = given o rest := by
  induction h generalizing ms s budget with
  | @nil first space hspace =>
    cases hitems
    cases ho
    obtain ⟨b, budget, rfl⟩ := List.exists_cons_of_length_pos (by omega : 0 < budget.length)
    simp only [members, nextName_close first hspace]
    rfl
  | @cons first lead item inner items hlead hinner ih =>
    cases hitems with
    | @cons _ m _ ms hitem hitems =>
      obtain ⟨b, budget, rfl⟩ := List.exists_cons_of_length_pos (by omega : 0 < budget.length)
      obtain ⟨ws, hname, hmember⟩ := hitem
      have hends : Ends (inner ++ '\x7d' :: rest) := hinner.ends (.inr rfl) rest
      obtain ⟨r, space, hspace, hnext, hcolon⟩ :=
        nextName_lead hlead hname hmember (inner ++ '\x7d' :: rest)
      have hbudget : items.length < budget.length := by simpa using hbudget
      rw [List.append_assoc, List.append_assoc]
      cases ho with
      | refused h =>
        -- the name is read before the member is refused, and its value only if it is known
        cases h with
        | repeated h => simp only [members, hnext, bind, Except.bind, h]; rfl
        | known h hvalue =>
          simp only [members, hnext, bind, Except.bind, h, hcolon,
            hvalue.read _ _ hspace hends]
          rfl
      | cons h hrest =>
        have hgo := ih hitems hrest budget hbudget
        cases h with
        | unknown h hvalue =>
          simp only [members, hnext, bind, Except.bind, h, hcolon,
            skipValue_of_valueText hvalue hspace hends, hgo]
        | known h hvalue =>
          simp only [members, hnext, bind, Except.bind, h, hcolon,
            hvalue.read _ _ hspace hends, given, hgo]

/-- A record that has been read in part is completed, or lacks something. -/
theorem completed (form : RecordForm σ α) (o : Option σ) (rest : List Char) :
    (given o rest >>= fun (partly, r) =>
      match form.complete partly with
      | some a => pure (a, r)
      | none => .error .mistyped) = given (o.bind form.complete) rest := by
  cases o with
  | none => rfl
  | some partly =>
    rw [Option.bind_some]
    cases h : form.complete partly <;> simp [given, bind, Except.bind, h, pure, Except.pure]

/-- A record that is written as an object is what its members make of it. -/
theorem reads_object {form : RecordForm σ α} {text : List Char} {ms : List (String × List Char)}
    {o : Option σ} (h : NamedText text ms) (ho : TakesAll form.member form.empty ms o) :
    Reads (Reader.record form) text (o.bind form.complete) := by
  obtain ⟨inner, items, hinner, hitems, rfl⟩ := h
  refine ⟨opens_cons rfl (by decide) (by decide) _, fun space rest hspace _ => ?_⟩
  have hlength := hinner.length_le fun item hitem =>
    let ⟨_, _, _, _, hmember⟩ := Traversal.exists_of_mem_left hitems hitem
    opens_member hmember
  have hmembers := members_items hinner hitems ho ('\x7b' :: (inner ++ '\x7d' :: rest))
    (by simp; omega) rest
  rw [Reader.record, List.cons_append, skipSpace_spaces_append hspace rfl, List.append_assoc,
    List.singleton_append]
  simp only [hmembers]
  exact completed form o rest

/-! ## Tables -/

theorem takesAll_bindAll {value : Reader α} {ms : List (String × List Char)}
    {entries : List (String × α)}
    (h : List.Forall₂ (fun m e => m.1 = e.1 ∧ Reads value m.2 (some e.2)) ms entries)
    (table : List (String × α)) :
    TakesAll
      (fun key table => .known fun s => (value s).map fun (a, r) => (Table.rebind key a table, r))
      table ms (some (Table.bindAll entries table)) := by
  induction h generalizing table with
  | nil => exact .nil
  | @cons m e ms entries hm _ ih =>
    obtain ⟨hname, hvalue⟩ := hm
    have hread := reads_map hvalue fun a => Table.rebind m.1 a table
    rw [Option.map_some, hname] at hread
    exact .cons (.known (by rw [hname]) hread) (ih _)

/-- A table binds each entry of its object in turn. -/
theorem reads_table {value : Reader α} {text : List Char} {ms : List (String × List Char)}
    {entries : List (String × α)} (h : NamedText text ms)
    (hentries : List.Forall₂ (fun m e => m.1 = e.1 ∧ Reads value m.2 (some e.2)) ms entries) :
    Reads (Reader.table value) text (some (Table.bindAll entries [])) := by
  obtain ⟨inner, items, hinner, hitems, rfl⟩ := h
  refine ⟨opens_cons rfl (by decide) (by decide) _, fun space rest hspace _ => ?_⟩
  have hlength := hinner.length_le fun item hitem =>
    let ⟨_, _, _, _, hmember⟩ := Traversal.exists_of_mem_left hitems hitem
    opens_member hmember
  have hmembers := members_items hinner hitems (takesAll_bindAll hentries [])
    ('\x7b' :: (inner ++ '\x7d' :: rest)) (by simp; omega) rest
  rw [Reader.table, List.cons_append, skipSpace_spaces_append hspace rfl, List.append_assoc,
    List.singleton_append]
  exact hmembers

/-- The last entry of a name. -/
def lastOf (entries : List (String × α)) (name : String) : Option α :=
  entries.reverse.lookup name

/-- What a table binds a name to is the last entry of the name, or what was bound before. -/
theorem lookup_bindAll (entries table : List (String × α)) (name : String) :
    (Table.bindAll entries table).lookup name = (lastOf entries name).or (table.lookup name) := by
  induction entries generalizing table with
  | nil => rfl
  | cons e entries ih =>
    have hcons : lastOf (e :: entries) name =
        (lastOf entries name).or (if name = e.1 then some e.2 else none) := by
      rw [lastOf, List.reverse_cons, List.lookup_append, Table.lookup_cons_eq_ite, List.lookup_nil,
        lastOf]
    have hbind : Table.bindAll (e :: entries) table =
        Table.bindAll entries (Table.rebind e.1 e.2 table) := rfl
    rw [hbind, ih, Table.lookup_rebind, hcons, Option.or_assoc]
    by_cases h : name = e.1
    · simp only [if_pos h, Option.some_or]
    · simp only [if_neg h, Option.none_or]

/-! ## Records as lists -/

/-- What the fields of a record, written in order, make of what it has given so far. Fields that
are left out at the end make nothing of it. -/
inductive TakesFields :
    List (σ → Reader σ) → σ → List (List Char) → Option σ → Prop
  | nil {fields : List (σ → Reader σ)} {s : σ} : TakesFields fields s [] (some s)
  | refused {field : σ → Reader σ} {fields : List (σ → Reader σ)} {s : σ} {item : List Char}
    {items : List (List Char)} (h : Reads (field s) item none) :
    TakesFields (field :: fields) s (item :: items) none
  | cons {field : σ → Reader σ} {fields : List (σ → Reader σ)} {s t : σ} {item : List Char}
    {items : List (List Char)} {o : Option σ} (h : Reads (field s) item (some t))
    (hrest : TakesFields fields t items o) : TakesFields (field :: fields) s (item :: items) o

/-- Fields are read one after another, up to the first one that is refused. -/
theorem positions_items {fields : List (σ → Reader σ)} {first : Bool} {inner : List Char}
    {items : List (List Char)} (h : Items first inner items) {s : σ} {o : Option σ}
    (ho : TakesFields fields s items o) (rest : List Char) :
    positions fields first s (inner ++ ']' :: rest) = given o rest := by
  induction h generalizing fields s with
  | @nil first space hspace =>
    cases ho
    cases fields with
    | nil =>
      rw [positions, closeList, skipSpace_spaces_append hspace rfl]
      rfl
    | cons field fields =>
      simp only [positions, nextElement_close first hspace]
      rfl
  | @cons first lead item inner items hlead hinner ih =>
    have hends : Ends (inner ++ ']' :: rest) := hinner.ends (.inl rfl) rest
    rw [List.append_assoc, List.append_assoc]
    cases ho with
    | refused h =>
      simp only [positions, nextElement_lead hlead h.opens, bind, Except.bind, h.read_here hends]
      rfl
    | cons h hrest =>
      simp only [positions, nextElement_lead hlead h.opens, bind, Except.bind, h.read_here hends,
        given, ih hrest]

/-- A record that is written as a list is what its fields make of it. -/
theorem reads_positions {form : RecordForm σ α} {text : List Char} {items : List (List Char)}
    {o : Option σ} (h : ListText text items) (ho : TakesFields form.fields form.empty items o) :
    Reads (Reader.record form) text (o.bind form.complete) := by
  obtain ⟨inner, hinner, rfl⟩ := h
  refine ⟨opens_cons rfl (by decide) (by decide) _, fun space rest hspace _ => ?_⟩
  have hpositions := positions_items hinner ho rest
  rw [Reader.record, List.cons_append, skipSpace_spaces_append hspace rfl, List.append_assoc,
    List.singleton_append]
  simp only [hpositions]
  exact completed form o rest

end Readers

/-! ## Whole texts -/

theorem isBlank_of_isSpace {c : Char} (h : isSpace c = true) : Text.isBlank c = true := by
  simp only [isSpace, Bool.or_eq_true, beq_iff_eq] at h
  rcases h with ((rfl | rfl) | rfl) | rfl <;> decide

/-- A text that is another one with space around it. -/
def Around (s : String) (text : List Char) : Prop :=
  ∃ before after, Spaces before ∧ Spaces after ∧ s.toList = before ++ (text ++ after)

/-- The value of a whole text is what the reader gives. -/
theorem parse_of_reads {α : Type} {reader : Reader α} {text : List Char} {o : Option α}
    (h : Reads reader text o) {s : String} (hs : Around s text) :
    parse reader s =
      match o with
      | some a => .ok a
      | none => .error .mistyped := by
  obtain ⟨before, after, hbefore, hafter, htext⟩ := hs
  have hends : Ends after := by
    intro c hc
    exact .inl (hafter c (List.mem_of_head? hc))
  have hskip : skipSpace after = [] := by
    have hnone := skipSpace_append hafter []
    rwa [List.append_nil] at hnone
  rw [parse, htext, h.read before after hbefore hends]
  cases o with
  | none => rfl
  | some a => simp only [given, bind, Except.bind, hskip]; rfl

end PayeeProposal.Json
