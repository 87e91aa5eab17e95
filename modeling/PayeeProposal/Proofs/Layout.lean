import PayeeProposal.Json.Layout
import PayeeProposal.Proofs.Fields

/-!
# Laid-out JSON

What a layout writes follows the grammar: a string has the escapes of its characters, and the
starts of lines are the space in front of items. Everything that is said of the reading of texts
thus holds of what a layout writes, however deep it stands.
-/

namespace PayeeProposal.Json

/-! ## Strings -/

theorem toList_quote (s : String) :
    (quote s).toList = '\x22' :: (s.toList.flatMap escapeChar ++ ['\x22']) := by
  simp [quote]

theorem stringText_quote (s : String) : StringText (quote s).toList s :=
  ⟨_, letters_escaped s.toList, toList_quote s⟩

/-! ## Items -/

/-- Items with commas between them, each with some space before it, and space behind the last. -/
theorem items_intercalate {pad after : List Char} (hpad : Spaces pad) (hafter : Spaces after)
    (items : List (List Char)) :
    Items true ([','].intercalate (items.map (pad ++ ·)) ++ after) items := by
  have hlead (first : Bool) (item : List Char) (items : List (List Char)) {lead : List Char}
      (h : Lead first lead) :
      Items first (lead ++ ([','].intercalate ((item :: items).map (pad ++ ·)) ++ after))
        (item :: items) := by
    induction items generalizing first item lead with
    | nil =>
      have hlast : Items first (lead ++ pad ++ (item ++ after)) [item] :=
        .cons (h.append hpad) (.nil hafter)
      simpa using hlast
    | cons next items ih =>
      have hrest := ih false next (.next spaces_nil spaces_nil)
      have hitem : Items first (lead ++ pad ++ (item ++ _)) (item :: next :: items) :=
        .cons (h.append hpad) hrest
      simpa using hitem
  cases items with
  | nil => exact .nil hafter
  | cons item items => exact hlead true item items (.first spaces_nil)

/-! ## Members -/

/-- A member is read into a field that is still free. -/
theorem takesAll_once {σ β : Type} {member : String → σ → Member σ} {s : σ} {name : String}
    {text : List Char} {reader : Reader β} {b : β} {ms : List (String × List Char)} {o : Option σ}
    (put : β → σ) (h : Reads reader text (some b)) (hfree : member name s = .once none reader put)
    (hrest : TakesAll member (put b) ms o) : TakesAll member s ((name, text) :: ms) o := by
  have htakes := takes_once (m := (name, text)) hfree h
  rw [Option.map_some] at htakes
  exact .cons htakes hrest

/-! ## Layouts -/

namespace Layout

theorem spaces_newline (depth : Nat) : Spaces (newline depth).toList := by
  intro c hc
  simp [newline] at hc
  rcases hc with rfl | ⟨-, rfl⟩
  · rfl
  · rfl

/-- Between the brackets stand the items, each on a line of its own. -/
theorem exists_items_enclose (opening closing : String) (items : List Layout) (depth : Nat) :
    ∃ inner, Items true inner (items.map fun item => (item (depth + 1)).toList) ∧
      (enclose opening closing items depth).toList =
        opening.toList ++ (inner ++ closing.toList) := by
  cases items with
  | nil => exact ⟨[], .nil spaces_nil, by simp [enclose]⟩
  | cons item items =>
    refine ⟨_, items_intercalate (spaces_newline (depth + 1)) (spaces_newline depth) _, ?_⟩
    have hlines : (",".intercalate ((item :: items).map fun i =>
        newline (depth + 1) ++ i (depth + 1))).toList =
        [','].intercalate (((item :: items).map fun i => (i (depth + 1)).toList).map
          ((newline (depth + 1)).toList ++ ·)) := by
      rw [String.toList_intercalate, List.map_map, List.map_map]
      simp only [Function.comp_def, String.toList_append]
      rfl
    rw [enclose, if_neg (by simp)]
    simp only [String.toList_append, hlines, List.append_assoc]

theorem listText_list (items : List Layout) (depth : Nat) :
    ListText (list items depth).toList (items.map fun item => (item (depth + 1)).toList) :=
  exists_items_enclose "[" "]" items depth

theorem namedText_object (ms : List (String × Layout)) (depth : Nat) :
    NamedText (object ms depth).toList (ms.map fun m => (m.1, (m.2 (depth + 1)).toList)) := by
  obtain ⟨inner, hinner, htext⟩ := exists_items_enclose "\x7b" "\x7d"
    (ms.map fun m => fun depth => quote m.1 ++ ": " ++ m.2 depth) depth
  refine ⟨inner, _, hinner, ?_, htext⟩
  rw [List.map_map, List.forall₂_map_left_iff, List.forall₂_map_right_iff, List.forall₂_same]
  intro m _
  exact ⟨_, letters_escaped m.1.toList, [], [' '], spaces_nil, by simp [Spaces, isSpace],
    by simp [toList_quote]⟩

theorem reads_string (s : String) (depth : Nat) :
    Reads Reader.string (string s depth).toList (some s) :=
  Json.reads_string (stringText_quote s)

theorem reads_boolean (b : Bool) (depth : Nat) :
    Reads Reader.boolean (boolean b depth).toList (some b) := by
  have hfalse : "false".toList = ['f', 'a', 'l', 's', 'e'] := by decide
  have htrue : "true".toList = ['t', 'r', 'u', 'e'] := by decide
  cases b
  · exact Json.reads_boolean (hfalse ▸ .no)
  · exact Json.reads_boolean (htrue ▸ .yes)

/-- A list is read back when its items are. -/
theorem reads_list {α : Type} {reader : Reader α} {layout : α → Layout}
    (h : ∀ a depth, Reads reader (layout a depth).toList (some a)) (as : List α) (depth : Nat) :
    Reads (Reader.list reader) (list (as.map layout) depth).toList (some as) := by
  apply reads_list_some (listText_list _ depth)
  rw [List.map_map, List.forall₂_map_left_iff, List.forall₂_same]
  exact fun a _ => h a (depth + 1)

end Layout

end PayeeProposal.Json
