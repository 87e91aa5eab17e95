import PayeeProposal.Proofs.Blank
import PayeeProposal.Proofs.Prompt
import PayeeProposal.Proofs.Traversal

/-!
# Questions one after another

Each question takes the next line of the input and is answered by it alone, so an answer neither
goes over to another question nor is lost with a line that is no text. What is printed is every
question in turn, whether or not its line can be read.
-/

namespace PayeeProposal.Prompt

/-! ## Lines -/

/-- The lines of an input, each with the line feed that ends it; the last one may lack it. -/
inductive Lines : List UInt8 → List (List UInt8) → Prop
  | nil : Lines [] []
  | last {line : List UInt8} (hne : line ≠ []) (h : lineFeed ∉ line) : Lines line [line]
  | cons {body rest : List UInt8} {lines : List (List UInt8)} (h : lineFeed ∉ body)
    (hrest : Lines rest lines) : Lines (body ++ lineFeed :: rest) ((body ++ [lineFeed]) :: lines)

theorem exists_lines (input : List UInt8) : ∃ lines, Lines input lines := by
  induction input with
  | nil => exact ⟨[], .nil⟩
  | cons b input ih =>
    obtain ⟨lines, hlines⟩ := ih
    by_cases hb : b = lineFeed
    · subst hb
      have hempty : lineFeed ∉ ([] : List UInt8) := by simp
      exact ⟨[lineFeed] :: lines, .cons hempty hlines⟩
    · -- the byte goes to the front of the line that is there, or is a line of its own
      cases hlines with
      | nil => exact ⟨[[b]], .last (by simp) (by simpa using Ne.symm hb)⟩
      | last hne h => exact ⟨[b :: input], .last (by simp) (by simp [h, Ne.symm hb])⟩
      | @cons body rest lines h hrest =>
        have hlonger : lineFeed ∉ b :: body := by simp [h, Ne.symm hb]
        exact ⟨_, .cons hlonger hrest⟩

theorem takeLine_of_not_mem {line : List UInt8} (h : lineFeed ∉ line) :
    takeLine line = (line, []) := by
  induction line with
  | nil => rfl
  | cons b line ih =>
    simp only [List.mem_cons, not_or] at h
    rw [takeLine, if_neg (Ne.symm h.1), ih h.2]

theorem takeLine_lineFeed {body : List UInt8} (h : lineFeed ∉ body) (rest : List UInt8) :
    takeLine (body ++ lineFeed :: rest) = (body ++ [lineFeed], rest) := by
  induction body with
  | nil => rw [List.nil_append, takeLine, if_pos rfl, List.nil_append]
  | cons b body ih =>
    simp only [List.mem_cons, not_or] at h
    rw [List.cons_append, takeLine, if_neg (Ne.symm h.1), ih h.2, List.cons_append]

theorem Lines.flatten {input : List UInt8} {lines : List (List UInt8)} (h : Lines input lines) :
    lines.flatten = input := by
  induction h with
  | nil => rfl
  | last => simp
  | cons _ _ ih => simp [ih]

/-- The line that is taken is the first one, and the others are the lines of what is left. -/
theorem Lines.takeLine_eq {input line : List UInt8} {lines : List (List UInt8)}
    (h : Lines input (line :: lines)) :
    ∃ rest, takeLine input = (line, rest) ∧ Lines rest lines := by
  cases h with
  | last _ h => exact ⟨[], takeLine_of_not_mem h, .nil⟩
  | cons h hrest => exact ⟨_, takeLine_lineFeed h _, hrest⟩

theorem Lines.eq_nil_iff {input : List UInt8} {lines : List (List UInt8)} (h : Lines input lines) :
    lines = [] ↔ input = [] := by
  cases h with
  | nil => simp
  | last hne _ => simp [hne]
  | cons => simp

theorem Lines.unique {input : List UInt8} {lines lines' : List (List UInt8)}
    (h : Lines input lines) (h' : Lines input lines') : lines' = lines := by
  induction lines generalizing input lines' with
  | nil => exact h'.eq_nil_iff.mpr (h.eq_nil_iff.mp rfl)
  | cons line lines ih =>
    obtain ⟨rest, htake, hrest⟩ := h.takeLine_eq
    cases lines' with
    | nil => exact absurd (h.eq_nil_iff.mpr (h'.eq_nil_iff.mp rfl)) (by simp)
    | cons line' lines' =>
      obtain ⟨rest', htake', hrest'⟩ := h'.takeLine_eq
      obtain ⟨rfl, rfl⟩ := Prod.mk.inj (htake.symm.trans htake')
      rw [ih hrest hrest']

/-! ## Answers -/

/-- A word is another one with some of its letters in upper case. -/
def Spells (word model : String) : Prop :=
  List.Forall₂ (fun c m => c = m ∨ c = m.toUpper) word.toList model.toList

/-- A text is one of two words, in whatever case and with whatever blanks around it. -/
def SaysYes (s : String) : Prop :=
  ∃ word, Text.Pads s word ∧ (Spells word "y" ∨ Spells word "yes")

/-- How a question is answered by the line that it takes: a line that is no text is an error, a
text says yes or it says no, and so does an input without a line. -/
inductive Answered : Option (List UInt8) → Except FileError Bool → Prop
  | ended : Answered none (.ok false)
  | unreadable {line : List UInt8} (h : ∀ s, Text.utf8 s ≠ line) :
    Answered (some line) (.error .notUtf8)
  | yes {s : String} (h : SaysYes s) : Answered (some (Text.utf8 s)) (.ok true)
  | no {s : String} (h : ¬ SaysYes s) : Answered (some (Text.utf8 s)) (.ok false)

theorem toLower_eq_iff {c m : Char} (hm : m.isLower = true) :
    c.toLower = m ↔ c = m ∨ c = m.toUpper := by
  delta Char.isLower at hm
  rw [Bool.and_eq_true, decide_eq_true_eq, decide_eq_true_eq] at hm
  have hlow : 97 ≤ m.toNat := hm.1
  have hhigh : m.toNat ≤ 122 := hm.2
  have hupper : m.toUpper.toNat = m.toNat - 32 := by
    delta Char.toUpper
    rw [dif_pos hm]
    show (m.val + ('A'.val - 'a'.val)).toNat = m.toNat - 32
    have hval : m.val.toNat = m.toNat := rfl
    rw [UInt32.toNat_add]
    simp
    omega
  rw [← Char.toNat_inj, ← Char.toNat_inj, ← Char.toNat_inj, hupper]
  by_cases hc : c.val ≥ 'A'.val ∧ c.val ≤ 'Z'.val
  · have hlow' : 65 ≤ c.toNat := hc.1
    have hhigh' : c.toNat ≤ 90 := hc.2
    have hlower : c.toLower.toNat = c.toNat + 32 := by
      delta Char.toLower
      rw [dif_pos hc]
      show (c.val + ('a'.val - 'A'.val)).toNat = c.toNat + 32
      have hval : c.val.toNat = c.toNat := rfl
      rw [UInt32.toNat_add]
      simp
      omega
    omega
  · have hnot : ¬ (65 ≤ c.toNat ∧ c.toNat ≤ 90) := hc
    delta Char.toLower
    rw [dif_neg hc]
    omega

theorem map_toLower_eq_iff {cs ms : List Char} (hms : ∀ m ∈ ms, m.isLower = true) :
    cs.map Char.toLower = ms ↔ List.Forall₂ (fun c m => c = m ∨ c = m.toUpper) cs ms := by
  induction ms generalizing cs with
  | nil => cases cs <;> simp
  | cons m ms ih =>
    cases cs with
    | nil => simp
    | cons c cs =>
      rw [List.map_cons, List.cons.injEq, List.forall₂_cons, toLower_eq_iff (hms m (by simp)),
        ih fun n hn => hms n (by simp [hn])]

theorem lowerAscii_eq_iff {word model : String} (hmodel : ∀ m ∈ model.toList, m.isLower = true) :
    Text.lowerAscii word = model ↔ Spells word model := by
  rw [Text.lowerAscii, ← String.toList_inj, String.toList_ofList, map_toLower_eq_iff hmodel,
    Spells]

theorem Spells.bare {word model : String} (h : Spells word model)
    (hmodel : ∀ m ∈ model.toList, Text.isBlank m = false ∧ Text.isBlank m.toUpper = false) :
    Text.Bare word := by
  apply Text.bare_of_forall
  intro c hc
  obtain ⟨m, hm, hcm⟩ := Traversal.exists_of_mem_left h hc
  rcases hcm with rfl | rfl
  · exact (hmodel _ hm).1
  · exact (hmodel _ hm).2

theorem isAffirmative_iff_saysYes {line : String} : isAffirmative line = true ↔ SaysYes line := by
  have hy : ∀ m ∈ "y".toList, m.isLower = true := by simp
  have hyes : ∀ m ∈ "yes".toList, m.isLower = true := by simp
  rw [isAffirmative_iff, lowerAscii_eq_iff hy, lowerAscii_eq_iff hyes]
  constructor
  · intro h
    exact ⟨Text.trim line, Text.pads_trim line, h⟩
  · rintro ⟨word, hpads, h⟩
    have hbare : Text.Bare word := by
      rcases h with h | h
      · exact h.bare (by simp [Text.isBlank])
      · exact h.bare (by simp [Text.isBlank])
    rwa [Text.trim_of_pads hpads hbare]

/-- A question is answered as its line says, and in no other way. -/
theorem answered_some_iff {line : List UInt8} {a : Except FileError Bool} :
    Answered (some line) a ↔ answer line = a := by
  constructor
  · intro h
    unfold answer
    cases h with
    | unreadable h =>
      cases hline : Text.ofUtf8? line with
      | none => rfl
      | some s => exact absurd (Text.ofUtf8?_eq_some_iff.mp hline) (h s)
    | yes h =>
      rw [Text.ofUtf8?_eq_some_iff.mpr rfl]
      exact congrArg Except.ok (isAffirmative_iff_saysYes.mpr h)
    | no h =>
      rw [Text.ofUtf8?_eq_some_iff.mpr rfl]
      exact congrArg Except.ok (Bool.eq_false_iff.mpr (mt isAffirmative_iff_saysYes.mp h))
  · rintro rfl
    unfold answer
    cases hline : Text.ofUtf8? line with
    | none =>
      refine .unreadable fun s hs => ?_
      rw [Text.ofUtf8?_eq_some_iff.mpr hs] at hline
      cases hline
    | some s =>
      obtain rfl := Text.ofUtf8?_eq_some_iff.mp hline
      show Answered (some (Text.utf8 s)) (.ok (isAffirmative s))
      cases hyes : isAffirmative s with
      | true => exact .yes (isAffirmative_iff_saysYes.mp hyes)
      | false =>
        refine .no fun h => ?_
        rw [isAffirmative_iff_saysYes.mpr h] at hyes
        cases hyes

theorem answered_none_iff {a : Except FileError Bool} : Answered none a ↔ .ok false = a :=
  ⟨fun | .ended => rfl, fun h => h ▸ .ended⟩

/-! ## Questions -/

theorem ask_nil : ask [] = (.ok false, []) := by
  have htext : Text.ofUtf8? [] = some "" := Text.ofUtf8?_eq_some_iff.mpr rfl
  have hno : isAffirmative "" = false := by decide
  simp only [ask, takeLine, answer, htext, hno]

/-- A question takes the first line and leaves the others. -/
theorem confirm_of_lines {t : Terminal} {lines : List (List UInt8)} (h : Lines t.input lines)
    (text : String) :
    ∃ a rest, t.confirm text = (a, ⟨rest, t.printed ++ question text⟩) ∧
      Lines rest (lines.drop 1) ∧ ∀ b, b = a ↔ Answered lines[0]? b := by
  cases lines with
  | nil =>
    obtain hinput : t.input = [] := h.eq_nil_iff.mp rfl
    refine ⟨.ok false, [], ?_, .nil, fun b => ?_⟩
    · rw [Terminal.confirm, hinput, ask_nil]
    · rw [List.getElem?_nil, answered_none_iff, eq_comm]
  | cons line lines =>
    obtain ⟨rest, htake, hrest⟩ := h.takeLine_eq
    refine ⟨answer line, rest, ?_, hrest, fun b => ?_⟩
    · simp only [Terminal.confirm, ask, htake]
    · rw [List.getElem?_cons_zero, answered_some_iff, eq_comm]

/-- Questions take as many lines as they are and leave the others, and each is answered by its
own line. -/
theorem confirmAll_of_lines {t : Terminal} {lines : List (List UInt8)} (h : Lines t.input lines)
    (questions : List String) :
    ∃ answers rest, t.confirmAll questions = (answers, ⟨rest, t.printed ++ transcript questions⟩) ∧
      Lines rest (lines.drop questions.length) ∧ answers.length = questions.length ∧
      ∀ i < questions.length, ∀ a, answers[i]? = some a ↔ Answered lines[i]? a := by
  induction questions generalizing t lines with
  | nil => exact ⟨[], t.input, by simp [Terminal.confirmAll, transcript], h, rfl, by simp⟩
  | cons text texts ih =>
    obtain ⟨a, rest, hconfirm, hrest, ha⟩ := confirm_of_lines h text
    obtain ⟨answers, left, hall, hleft, hlength, hanswers⟩ :=
      ih (t := ⟨rest, t.printed ++ question text⟩) hrest
    refine ⟨a :: answers, left, ?_, ?_, by simp [hlength], fun i hi b => ?_⟩
    · simp only [Terminal.confirmAll, hconfirm, hall, transcript, List.map_cons, String.join_cons,
        String.append_assoc]
    · simpa [Nat.add_comm] using hleft
    · cases i with
      | zero => rw [List.getElem?_cons_zero, Option.some.injEq, eq_comm, ha b]
      | succ i =>
        rw [List.getElem?_cons_succ, hanswers i (by simpa using hi) b, List.getElem?_drop,
          Nat.add_comm]

theorem answers_confirmAll (t : Terminal) (questions : List String) :
    (t.confirmAll questions).1 = askAll t.input questions := by
  induction questions generalizing t with
  | nil => rfl
  | cons text texts ih =>
    simp only [Terminal.confirmAll, Terminal.confirm, askAll, ih]

/-- Questions on an input are answered line by line. An input has lines in one way only. Each
question takes the next of them, whatever the lines before it were, and leaves those behind it; it
is answered as this line says and in no other way, and where no line is left the answer is no. What
is printed is every question with what it may be answered by, also where its line is no text. -/
theorem confirmAll_line_by_line (input : List UInt8) (questions : List String) :
    ∃ lines, Lines input lines ∧ (∀ others, Lines input others → others = lines) ∧
      (∀ i ≤ questions.length,
        (Terminal.confirmAll ⟨input, ""⟩ (questions.take i)).2.input = (lines.drop i).flatten) ∧
      (Terminal.confirmAll ⟨input, ""⟩ questions).1 = askAll input questions ∧
      (askAll input questions).length = questions.length ∧
      (∀ i < questions.length, ∀ a,
        (askAll input questions)[i]? = some a ↔ Answered lines[i]? a) ∧
      (Terminal.confirmAll ⟨input, ""⟩ questions).2.printed = transcript questions ∧
      transcript questions = String.join (questions.map (· ++ " [y/N]: ")) := by
  obtain ⟨lines, hlines⟩ := exists_lines input
  have hrun := answers_confirmAll ⟨input, ""⟩ questions
  obtain ⟨answers, rest, hall, -, hlength, hanswers⟩ :=
    confirmAll_of_lines (t := ⟨input, ""⟩) hlines questions
  obtain rfl : answers = askAll input questions := by
    rw [← hrun, hall]
  refine ⟨lines, hlines, fun _ => hlines.unique, fun i hi => ?_, hrun, hlength, hanswers, ?_, rfl⟩
  · obtain ⟨_, left, hleft, hlines', -⟩ :=
      confirmAll_of_lines (t := ⟨input, ""⟩) hlines (questions.take i)
    rw [List.length_take, Nat.min_eq_left hi] at hlines'
    rw [hleft, hlines'.flatten]
  · rw [hall]
    exact String.empty_append

end PayeeProposal.Prompt
