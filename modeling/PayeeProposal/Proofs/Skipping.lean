import PayeeProposal.Json.Skip
import PayeeProposal.Proofs.Letters
import PayeeProposal.Proofs.Traversal

/-!
# Passing over any value

A value that nobody wants is passed over, whatever it is: the walk comes to its end with the frames
that were open in front of it, however deep lists and objects nest inside. Each list or object takes
a step for its brackets and items and what its items take, never more than two steps a character.
-/

namespace PayeeProposal.Json

/-! ## What ends a value -/

section Ends

variable {rest : List Char}

theorem ends_nil : Ends [] := by
  simp [Ends]

theorem ends_cons {c : Char} (h : isSpace c = true ∨ c = ',' ∨ c = ']' ∨ c = '\x7d')
    (cs : List Char) : Ends (c :: cs) := by
  rintro d hd
  obtain rfl : c = d := by simpa using hd
  exact h

theorem Ends.append {s : List Char} (hs : Spaces s) (h : Ends rest) : Ends (s ++ rest) := by
  cases s with
  | nil => exact h
  | cons c s => exact ends_cons (.inl (hs c (by simp))) _

/-- Behind an item stand space and either a comma or what closes the items. -/
theorem Items.ends {inner : List Char} {items : List (List Char)} (h : Items false inner items)
    {close : Char} (hclose : close = ']' ∨ close = '\x7d') (rest : List Char) :
    Ends (inner ++ close :: rest) := by
  cases h with
  | nil hs => exact Ends.append hs (ends_cons (.inr (.inr hclose)) _)
  | cons hlead hrest =>
    cases hlead with
    | next hs ht =>
      rw [List.append_assoc, List.append_assoc]
      exact Ends.append hs (ends_cons (.inr (.inl rfl)) _)

/-- Where digits cannot go on. -/
def NoFigure (rest : List Char) : Prop :=
  ∀ c, rest.head? = some c → c.isDigit = false

theorem noFigure_cons {c : Char} (h : c.isDigit = false) (cs : List Char) : NoFigure (c :: cs) := by
  rintro d hd
  obtain rfl : c = d := by simpa using hd
  exact h

theorem isDigit_of_ends {c : Char} (h : isSpace c = true ∨ c = ',' ∨ c = ']' ∨ c = '\x7d') :
    c.isDigit = false ∧ c ≠ '.' ∧ c ≠ 'e' ∧ c ≠ 'E' := by
  rcases h with h | rfl | rfl | rfl
  · simp only [isSpace, Bool.or_eq_true, beq_iff_eq] at h
    rcases h with ((rfl | rfl) | rfl) | rfl <;> decide
  all_goals decide

theorem Ends.noFigure (h : Ends rest) : NoFigure rest :=
  fun c hc => (isDigit_of_ends (h c hc)).1

end Ends

/-! ## Numbers -/

theorem spanDigits_append {ds rest : List Char} (hds : ∀ d ∈ ds, d.isDigit = true)
    (hrest : NoFigure rest) : spanDigits (ds ++ rest) = (ds.map digitValue, rest) := by
  have hnone : rest.takeWhile Char.isDigit = [] ∧ rest.dropWhile Char.isDigit = rest := by
    cases rest with
    | nil => simp
    | cons c rest => simp [hrest c rfl]
  rw [spanDigits, List.takeWhile_append_of_pos hds, List.dropWhile_append_of_pos hds, hnone.1,
    hnone.2, List.append_nil]

theorem ne_of_isDigit {c d : Char} (hd : d.isDigit = true) (hc : c.isDigit = false) : d ≠ c := by
  rintro rfl
  rw [hd] at hc
  cases hc

theorem skipExponent_append {sign ds rest : List Char}
    (hsign : sign = [] ∨ sign = ['+'] ∨ sign = ['-']) (h : Figures ds) (hrest : NoFigure rest) :
    skipExponent (sign ++ (ds ++ rest)) = .ok rest := by
  obtain ⟨hne, hds⟩ := h
  obtain ⟨d, ds, rfl⟩ := List.exists_cons_of_ne_nil hne
  have hdigit : d.isDigit = true := hds d List.mem_cons_self
  have hspan := spanDigits_append hds hrest
  rw [List.map_cons, List.cons_append] at hspan
  rcases hsign with rfl | rfl | rfl
  · rw [List.nil_append, List.cons_append, skipExponent, hspan]
    · exact fun r h => ne_of_isDigit hdigit rfl (List.cons.inj h).1
    · exact fun r h => ne_of_isDigit hdigit rfl (List.cons.inj h).1
  · simp only [skipExponent, List.cons_append, List.nil_append, hspan]
  · simp only [skipExponent, List.cons_append, List.nil_append, hspan]

theorem skipNumberRest_of_ends {rest : List Char} (h : Ends rest) :
    skipNumberRest rest = .ok rest := by
  rw [skipNumberRest]
  all_goals
    rintro r rfl
    obtain ⟨-, hpoint, hlower, hupper⟩ := isDigit_of_ends (h _ rfl)
    contradiction

/-- What stands behind the whole part is passed over. -/
theorem skipNumberRest_append {fraction exponent rest : List Char} (hf : FractionText fraction)
    (he : ExponentText exponent) (hrest : Ends rest) :
    skipNumberRest (fraction ++ (exponent ++ rest)) = .ok rest := by
  cases hf with
  | absent =>
    cases he with
    | absent => exact skipNumberRest_of_ends hrest
    | @present e sign ds hletter hsign hds =>
      have hskip := skipExponent_append hsign hds hrest.noFigure
      rcases hletter with rfl | rfl
      · simpa [skipNumberRest] using hskip
      · simpa [skipNumberRest] using hskip
  | @present fs hfs =>
    obtain ⟨hne, hfigures⟩ := hfs
    obtain ⟨f, fs, rfl⟩ := List.exists_cons_of_ne_nil hne
    cases he with
    | absent =>
      have hspan := spanDigits_append hfigures hrest.noFigure
      rw [List.map_cons] at hspan
      simp only [skipNumberRest, List.cons_append, List.nil_append] at hspan ⊢
      rw [hspan]
      split
      · rename_i heq
        cases heq
      · rename_i heq
        obtain ⟨-, rfl⟩ := Prod.mk.inj heq
        exact absurd rfl (isDigit_of_ends (hrest _ rfl)).2.2.1
      · rename_i heq
        obtain ⟨-, rfl⟩ := Prod.mk.inj heq
        exact absurd rfl (isDigit_of_ends (hrest _ rfl)).2.2.2
      · rename_i heq
        obtain ⟨-, rfl⟩ := Prod.mk.inj heq
        rfl
    | @present e sign ds hletter hsign hds =>
      have hskip := skipExponent_append hsign hds hrest.noFigure
      have hletter' : e.isDigit = false := by rcases hletter with rfl | rfl <;> rfl
      have hspan := spanDigits_append hfigures
        (noFigure_cons hletter' (sign ++ (ds ++ rest)))
      rw [List.map_cons] at hspan
      simp only [skipNumberRest, List.cons_append, List.append_assoc] at hspan ⊢
      rw [hspan]
      rcases hletter with rfl | rfl
      · exact hskip
      · exact hskip

/-- What stands behind a whole part does not go on with it. -/
theorem noFigure_append {fraction exponent rest : List Char} (hf : FractionText fraction)
    (he : ExponentText exponent) (hrest : Ends rest) :
    NoFigure (fraction ++ (exponent ++ rest)) := by
  cases hf with
  | present hfs => exact noFigure_cons (by decide) _
  | absent =>
    cases he with
    | absent => exact hrest.noFigure
    | present hletter hsign hds =>
      refine noFigure_cons ?_ _
      rcases hletter with rfl | rfl <;> rfl

theorem skipUnsigned_append {whole s rest : List Char} (h : WholeText whole) (hs : NoFigure s)
    (hskip : skipNumberRest s = .ok rest) : skipUnsigned (whole ++ s) = .ok rest := by
  cases h with
  | zero =>
    cases s with
    | nil => simpa [skipUnsigned, skipNumberRest] using hskip
    | cons c s => simpa [skipUnsigned, hs c rfl] using hskip
  | @digits d ds hd hne hds =>
    have hdrop : (d :: (ds ++ s)).dropWhile Char.isDigit = s := by
      have hall : ∀ e ∈ d :: ds, e.isDigit = true := by
        intro e he
        rcases List.mem_cons.mp he with rfl | he
        · exact hd
        · exact hds e he
      exact congrArg Prod.snd (spanDigits_append hall hs)
    rw [List.cons_append, skipUnsigned]
    · rw [if_pos hd, hdrop, hskip]
    · exact hne

theorem skipScalar_of_isDigit {d : Char} (hd : d.isDigit = true) (s : List Char) :
    skipScalar (d :: s) = skipUnsigned (d :: s) := by
  rw [skipScalar, if_pos hd]
  all_goals exact ne_of_isDigit hd rfl

theorem WholeText.exists_cons {whole : List Char} (h : WholeText whole) :
    ∃ d ds, whole = d :: ds ∧ d.isDigit = true := by
  cases h with
  | zero => exact ⟨'0', [], rfl, rfl⟩
  | @digits d ds hd _ _ => exact ⟨d, ds, rfl, hd⟩

theorem skipScalar_number {text rest : List Char} (h : NumberText text) (hrest : Ends rest) :
    skipScalar (text ++ rest) = .ok rest := by
  obtain ⟨hsign, hwhole, hf, he⟩ := h
  rename_i sign whole fraction exponent
  have hunsigned : skipUnsigned (whole ++ (fraction ++ (exponent ++ rest))) = .ok rest :=
    skipUnsigned_append hwhole (noFigure_append hf he hrest) (skipNumberRest_append hf he hrest)
  simp only [List.append_assoc]
  rcases hsign with rfl | rfl
  · obtain ⟨d, ds, rfl, hd⟩ := hwhole.exists_cons
    rw [List.nil_append, List.cons_append, skipScalar_of_isDigit hd]
    exact hunsigned
  · exact hunsigned

/-! ## Scalars -/

theorem skipScalar_string {ws : List Char} (h : Body ws) (rest : List Char) :
    skipScalar ('\x22' :: (ws ++ ['\x22']) ++ rest) = .ok rest := by
  have hskip := skipText_body h rest
  simpa [skipScalar] using hskip

/-! ## The walk -/

/-- A value is walked over in at most two steps for each of its characters, whatever frames are
open in front of it. -/
def Passes (text : List Char) : Prop :=
  ∃ k ≤ 2 * text.length, ∀ n frames space rest, Spaces space → Ends rest →
    walk (n + k) .value frames (space ++ (text ++ rest)) = walk n .ended frames rest

/-- An item of a frame leads to a value in it: the value stands at the end of the item, and what
is entered first is what stands in front of it. -/
structure LeadsTo (frame : Frame) (item value : List Char) : Prop where
  opens : ∃ c cs, item = c :: cs ∧ isSpace c = false ∧ c ≠ frame.close
  le : value.length ≤ item.length
  enter : ∀ space rest, Spaces space → ∃ space', Spaces space' ∧
    frame.enter (space ++ (item ++ rest)) = .ok (space' ++ (value ++ rest))

/-- Space is dropped up to what is none. -/
theorem skipSpace_spaces_append {space : List Char} (hspace : Spaces space) {c : Char}
    (hc : isSpace c = false) (cs : List Char) : skipSpace (space ++ c :: cs) = c :: cs := by
  rw [skipSpace_append hspace, skipSpace_cons, hc, if_neg (by simp)]

/-- A scalar is walked over in one step. -/
theorem passes_scalar {text : List Char} (hopens : Opens text) (hbracket : text.head? ≠ some '[')
    (hbrace : text.head? ≠ some '\x7b')
    (h : ∀ rest, Ends rest → skipScalar (text ++ rest) = .ok rest) : Passes text := by
  obtain ⟨c, cs, rfl, hspace, -⟩ := hopens
  refine ⟨1, by simp; omega, fun n frames space rest hs hrest => ?_⟩
  have hskip := h rest hrest
  have hbracket' : c ≠ '[' := by simpa using hbracket
  have hbrace' : c ≠ '\x7b' := by simpa using hbrace
  rw [List.cons_append] at hskip ⊢
  rw [walk, skipSpace_spaces_append hs hspace]
  split
  · rename_i heq
    exact absurd (List.cons.inj heq).1 hbracket'
  · rename_i heq
    exact absurd (List.cons.inj heq).1 hbrace'
  · rw [hskip]

/-- Where the walk goes on in a frame that has just been opened, or after an item. -/
def goOn (first : Bool) : Stage :=
  if first then .opened else .ended

theorem isSpace_close (frame : Frame) : isSpace frame.close = false := by
  cases frame <;> rfl

theorem close_ne_comma (frame : Frame) : frame.close ≠ ',' := by
  cases frame <;> decide

theorem walk_close (n : Nat) (first : Bool) (frame : Frame) (frames : List Frame)
    {space : List Char} (hspace : Spaces space) (rest : List Char) :
    walk (n + 1) (goOn first) (frame :: frames) (space ++ frame.close :: rest) =
      walk n .ended frames rest := by
  have hskip : skipSpace (space ++ frame.close :: rest) = frame.close :: rest :=
    skipSpace_spaces_append hspace (isSpace_close frame) rest
  cases first with
  | true => simp only [goOn, if_true, walk, hskip]
  | false => simp [goOn, walk, hskip]

/-- In front of an item there is one step, which leads to its value. -/
theorem walk_lead {frame : Frame} {item value : List Char} (h : LeadsTo frame item value)
    {first : Bool} {lead : List Char} (hlead : Lead first lead) (rest : List Char) :
    ∃ space, Spaces space ∧ ∀ n frames,
      walk (n + 1) (goOn first) (frame :: frames) (lead ++ (item ++ rest)) =
        walk n .value (frame :: frames) (space ++ (value ++ rest)) := by
  obtain ⟨c, cs, rfl, hspace, hclose⟩ := h.opens
  cases hlead with
  | first hs =>
    obtain ⟨space, hsp, henter⟩ := h.enter [] rest spaces_nil
    refine ⟨space, hsp, fun n frames => ?_⟩
    have hskip : skipSpace (lead ++ (c :: cs ++ rest)) = c :: (cs ++ rest) :=
      skipSpace_spaces_append hs hspace (cs ++ rest)
    rw [List.nil_append, List.cons_append] at henter
    simp only [goOn, if_true, walk, hskip, if_neg hclose, henter]
  | @next s t hs ht =>
    obtain ⟨space, hsp, henter⟩ := h.enter t rest ht
    refine ⟨space, hsp, fun n frames => ?_⟩
    have hskip :
        skipSpace (s ++ ',' :: t ++ (c :: cs ++ rest)) = ',' :: (t ++ (c :: cs ++ rest)) := by
      rw [List.append_assoc, List.cons_append, skipSpace_spaces_append hs rfl]
    have hcomma : ¬ ',' = frame.close := (close_ne_comma frame).symm
    simp only [goOn, Bool.false_eq_true, if_false, walk, hskip, if_neg hcomma, if_true, henter]

/-- The items of a frame are walked over one after another, and the frame is closed. -/
theorem walk_items {frame : Frame} {first : Bool} {inner : List Char} {items : List (List Char)}
    (h : Items first inner items)
    (hitems : ∀ item ∈ items, ∃ value, LeadsTo frame item value ∧ Passes value) :
    ∃ k ≤ 2 * inner.length + (if first then 2 else 1), ∀ n frames rest,
      walk (n + k) (goOn first) (frame :: frames) (inner ++ frame.close :: rest) =
        walk n .ended frames rest := by
  induction h with
  | @nil first s hs =>
    refine ⟨1, ?_, fun n frames rest => walk_close n first frame frames hs rest⟩
    split <;> omega
  | @cons first lead item inner items hlead hinner ih =>
    obtain ⟨value, hleads, kv, hkv, hvalue⟩ := hitems item (by simp)
    obtain ⟨k, hk, hwalk⟩ := ih fun i hi => hitems i (by simp [hi])
    have hle := hleads.le
    -- a step to the value, the steps for the value, and those for the items behind it
    refine ⟨k + kv + 1, ?_, fun n frames rest => ?_⟩
    · cases hlead with
      | first => simp at hk ⊢; omega
      | next => simp at hk ⊢; omega
    · obtain ⟨space, hspace, hstep⟩ := walk_lead hleads hlead (inner ++ frame.close :: rest)
      have hclose : frame.close = ']' ∨ frame.close = '\x7d' := by
        cases frame <;> simp [Frame.close]
      rw [List.append_assoc, List.append_assoc, ← Nat.add_assoc, hstep, ← Nat.add_assoc,
        hvalue _ _ _ _ hspace (hinner.ends hclose rest)]
      exact hwalk n frames rest

theorem walk_value_space (n : Nat) (frames : List Frame) {space : List Char} (h : Spaces space)
    (s : List Char) :
    walk (n + 1) .value frames (space ++ s) = walk (n + 1) .value frames s := by
  rw [walk, walk, skipSpace_append h]

/-- A list or object is walked over item by item. -/
theorem passes_frame (frame : Frame) {inner : List Char} {items : List (List Char)}
    (h : Items true inner items)
    (hitems : ∀ item ∈ items, ∃ value, LeadsTo frame item value ∧ Passes value) {opening : Char}
    (hopening : ∀ n frames s, walk (n + 1) .value frames (opening :: s) =
      walk n .opened (frame :: frames) s) :
    Passes (opening :: (inner ++ [frame.close])) := by
  obtain ⟨k, hk, hwalk⟩ := walk_items h hitems
  refine ⟨k + 1, by simp at hk ⊢; omega, fun n frames space rest hs _ => ?_⟩
  rw [← Nat.add_assoc, walk_value_space _ _ hs, List.cons_append, hopening, List.append_assoc]
  exact hwalk n frames rest

theorem leadsTo_list {item : List Char} (h : Opens item) : LeadsTo .list item item where
  opens := by
    obtain ⟨c, cs, rfl, hspace, hclose, -⟩ := h
    exact ⟨c, cs, rfl, hspace, hclose⟩
  le := Nat.le_refl _
  enter := fun space _ hspace => ⟨space, hspace, rfl⟩

theorem leadsTo_object {item name value : List Char} (h : MemberText item name value)
    (hname : Body name) : LeadsTo .object item value := by
  obtain ⟨s, t, hs, ht, rfl⟩ := h
  refine ⟨⟨_, _, rfl, rfl, by decide⟩, by simp; omega, fun space rest hspace => ⟨t, ht, ?_⟩⟩
  have hskip : skipText (name ++ '\x22' :: (s ++ ':' :: (t ++ value ++ rest))) =
      .ok (s ++ ':' :: (t ++ value ++ rest)) := skipText_body hname _
  have hcolon : skipSpace (s ++ ':' :: (t ++ value ++ rest)) = ':' :: (t ++ value ++ rest) :=
    skipSpace_spaces_append hs rfl _
  have hquote : skipSpace ('\x22' :: (name ++ '\x22' :: (s ++ ':' :: (t ++ value ++ rest)))) =
      '\x22' :: (name ++ '\x22' :: (s ++ ':' :: (t ++ value ++ rest))) := rfl
  simp only [Frame.enter, skipName, List.cons_append, List.append_assoc] at hskip hcolon hquote ⊢
  rw [skipSpace_append hspace, hquote]
  simp only [hskip, bind, Except.bind, hcolon]

theorem NumberText.exists_cons {text : List Char} (h : NumberText text) :
    ∃ c cs, text = c :: cs ∧ (c = '-' ∨ c.isDigit = true) := by
  obtain ⟨hsign, hwhole, -, -⟩ := h
  rcases hsign with rfl | rfl
  · obtain ⟨d, ds, rfl, hd⟩ := hwhole.exists_cons
    exact ⟨d, _, rfl, .inr hd⟩
  · exact ⟨'-', _, rfl, .inl rfl⟩

/-- A number starts with no character that means something else. -/
theorem NumberText.head_ne {c : Char} {cs : List Char} (h : NumberText (c :: cs)) {d : Char}
    (hd : d.isDigit = false) (hminus : d ≠ '-') : c ≠ d := by
  obtain ⟨c, cs, heq, hc⟩ := h.exists_cons
  obtain ⟨rfl, rfl⟩ := List.cons.inj heq
  rintro rfl
  rcases hc with rfl | hc
  · exact hminus rfl
  · exact ne_of_isDigit hc hd rfl

theorem opens_number {text : List Char} (h : NumberText text) : Opens text := by
  obtain ⟨c, cs, rfl, -⟩ := h.exists_cons
  have hne : ∀ {d : Char}, d.isDigit = false → d ≠ '-' → c ≠ d := h.head_ne
  refine ⟨c, cs, rfl, ?_, hne rfl (by decide), hne rfl (by decide)⟩
  simp [isSpace, hne (d := ' ') rfl (by decide), hne (d := '\n') rfl (by decide),
    hne (d := '\t') rfl (by decide), hne (d := '\r') rfl (by decide)]

theorem passes_number {text : List Char} (h : NumberText text) : Passes text := by
  obtain ⟨c, cs, rfl, -⟩ := h.exists_cons
  apply passes_scalar (opens_number h)
  · simpa using h.head_ne rfl (by decide)
  · simpa using h.head_ne rfl (by decide)
  · exact fun rest hrest => skipScalar_number h hrest

theorem opens_cons {c : Char} (hspace : isSpace c = false) (hclose : c ≠ ']') (hcomma : c ≠ ',')
    (cs : List Char) : Opens (c :: cs) :=
  ⟨c, cs, rfl, hspace, hclose, hcomma⟩

/-- A keyword is walked over in one step. -/
theorem passes_keyword {k : Char} {ks : List Char} (hopens : Opens (k :: ks)) (hbracket : k ≠ '[')
    (hbrace : k ≠ '\x7b') (h : ∀ s, skipScalar (k :: s) = keyword ks s) : Passes (k :: ks) := by
  apply passes_scalar hopens
  · simpa using hbracket
  · simpa using hbrace
  · intro rest _
    rw [List.cons_append, h, keyword_append]

/-- Every value opens as one, and is walked over. -/
theorem passes_value {text : List Char} (h : ValueText text) : Opens text ∧ Passes text := by
  induction h with
  | null =>
    have hopens : Opens ['n', 'u', 'l', 'l'] := opens_cons rfl (by decide) (by decide) _
    exact ⟨hopens, passes_keyword hopens (by decide) (by decide) fun _ => rfl⟩
  | true =>
    have hopens : Opens ['t', 'r', 'u', 'e'] := opens_cons rfl (by decide) (by decide) _
    exact ⟨hopens, passes_keyword hopens (by decide) (by decide) fun _ => rfl⟩
  | false =>
    have hopens : Opens ['f', 'a', 'l', 's', 'e'] := opens_cons rfl (by decide) (by decide) _
    exact ⟨hopens, passes_keyword hopens (by decide) (by decide) fun _ => rfl⟩
  | number h => exact ⟨opens_number h, passes_number h⟩
  | @string ws h =>
    have hopens : Opens ('\x22' :: (ws ++ ['\x22'])) := opens_cons rfl (by decide) (by decide) _
    refine ⟨hopens, passes_scalar hopens (by simp) (by simp) fun rest _ => ?_⟩
    exact skipScalar_string h rest
  | list h _ ih =>
    obtain ⟨inner, hinner, rfl⟩ := h
    refine ⟨opens_cons rfl (by decide) (by decide) _, ?_⟩
    apply passes_frame .list hinner
    · exact fun item hitem => ⟨item, leadsTo_list (ih item hitem).1, (ih item hitem).2⟩
    · exact fun _ _ _ => rfl
  | object h hnames _ ih =>
    obtain ⟨inner, items, hinner, hmembers, rfl⟩ := h
    refine ⟨opens_cons rfl (by decide) (by decide) _, ?_⟩
    apply passes_frame .object hinner
    · intro item hitem
      obtain ⟨m, hm, hmember⟩ := Traversal.exists_of_mem_left hmembers hitem
      exact ⟨m.2, leadsTo_object hmember (hnames m hm), (ih m hm).2⟩
    · exact fun _ _ _ => rfl

/-- A value is passed over, with space before it and whatever comes behind it. -/
theorem skipValue_of_valueText {text : List Char} (h : ValueText text) {space rest : List Char}
    (hspace : Spaces space) (hrest : Ends rest) :
    skipValue (space ++ (text ++ rest)) = .ok rest := by
  obtain ⟨k, hk, hwalk⟩ := (passes_value h).2
  -- what the value does not use of the budget stays, with one step to see that nothing is open
  have hbudget : 2 * (space ++ (text ++ rest)).length + 2 =
      (2 * (space ++ (text ++ rest)).length + 1 - k + 1) + k := by
    simp
    omega
  rw [skipValue, hbudget, hwalk _ _ _ _ hspace hrest]
  rfl

end PayeeProposal.Json
