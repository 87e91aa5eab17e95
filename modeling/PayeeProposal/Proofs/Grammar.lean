import Mathlib.Data.List.Forall2
import PayeeProposal.Json.Text

/-!
# JSON texts

The grammar of JSON, without regard to any reader: which texts are numbers, strings, lists and
objects, with all the space and all the escapes that the grammar allows. Lists and objects are
given by the texts of their items, so it can be said of an item what it is to be read as.
-/

namespace PayeeProposal.Json

/-! ## Space -/

/-- Nothing but space. -/
def Spaces (s : List Char) : Prop :=
  ∀ c ∈ s, isSpace c = true

theorem spaces_nil : Spaces [] := by
  simp [Spaces]

/-- What stands behind a value: nothing, space, or what closes or goes on with a list or object. -/
def Ends (rest : List Char) : Prop :=
  ∀ c, rest.head? = some c → isSpace c = true ∨ c = ',' ∨ c = ']' ∨ c = '\x7d'

/-- A value's first character, which is neither space nor part of a list around the value. -/
def Opens (text : List Char) : Prop :=
  ∃ c cs, text = c :: cs ∧ isSpace c = false ∧ c ≠ ']' ∧ c ≠ ','

/-! ## Numbers -/

/-- One or more decimal digits. -/
def Figures (ds : List Char) : Prop :=
  ds ≠ [] ∧ ∀ d ∈ ds, d.isDigit = true

/-- What stands in front of the point of a number: zero, or digits of which the first is not. -/
inductive WholeText : List Char → Prop
  | zero : WholeText ['0']
  | digits {d : Char} {ds : List Char} (hd : d.isDigit = true) (hne : d ≠ '0')
    (hds : ∀ e ∈ ds, e.isDigit = true) : WholeText (d :: ds)

/-- A point and the digits behind it, or nothing. -/
inductive FractionText : List Char → Prop
  | absent : FractionText []
  | present {ds : List Char} (h : Figures ds) : FractionText ('.' :: ds)

/-- An exponent with or without a sign, or nothing. -/
inductive ExponentText : List Char → Prop
  | absent : ExponentText []
  | present {e : Char} {sign ds : List Char} (he : e = 'e' ∨ e = 'E')
    (hsign : sign = [] ∨ sign = ['+'] ∨ sign = ['-']) (h : Figures ds) :
    ExponentText (e :: (sign ++ ds))

/-- A number. -/
inductive NumberText : List Char → Prop
  | intro {sign whole fraction exponent : List Char} (hsign : sign = [] ∨ sign = ['-'])
    (hwhole : WholeText whole) (hfraction : FractionText fraction)
    (hexponent : ExponentText exponent) :
    NumberText (sign ++ (whole ++ (fraction ++ exponent)))

/-! ## Strings -/

/-- The four hexadecimal digits of a unit. -/
def UnitText (us : List Char) (unit : Nat) : Prop :=
  us.length = 4 ∧ Digits.ofChars? 16 us = some unit

/-- What is written between quotation marks for some characters: a character may stand for itself,
be written as a letter behind a backslash, or as a unit or a pair of units. -/
inductive Letters : List Char → List Char → Prop
  | nil : Letters [] []
  | plain {c : Char} {ws cs : List Char} (hquote : c ≠ '\x22') (hslash : c ≠ '\\')
    (hcontrol : isControl c = false) (h : Letters ws cs) : Letters (c :: ws) (c :: cs)
  | escape {e c : Char} {ws cs : List Char} (he : unescape? e = some c) (h : Letters ws cs) :
    Letters ('\\' :: e :: ws) (c :: cs)
  | unit {us ws cs : List Char} {unit : Nat} (hunit : UnitText us unit)
    (hhigh : isHighSurrogate unit = false) (hlow : isLowSurrogate unit = false)
    (h : Letters ws cs) : Letters ('\\' :: 'u' :: (us ++ ws)) (Char.ofNat unit :: cs)
  | pair {us vs ws cs : List Char} {high low : Nat} (hunit : UnitText us high)
    (hunit' : UnitText vs low) (hhigh : isHighSurrogate high = true)
    (hlow : isLowSurrogate low = true) (h : Letters ws cs) :
    Letters ('\\' :: 'u' :: (us ++ '\\' :: 'u' :: (vs ++ ws))) (pairChar high low :: cs)

/-- What may stand between quotation marks at all; a unit need not be a character's. -/
inductive Body : List Char → Prop
  | nil : Body []
  | plain {c : Char} {ws : List Char} (hquote : c ≠ '\x22') (hslash : c ≠ '\\')
    (hcontrol : isControl c = false) (h : Body ws) : Body (c :: ws)
  | escape {e : Char} {ws : List Char} (he : (unescape? e).isSome = true) (h : Body ws) :
    Body ('\\' :: e :: ws)
  | unit {us ws : List Char} {unit : Nat} (hunit : UnitText us unit) (h : Body ws) :
    Body ('\\' :: 'u' :: (us ++ ws))

/-- A string that stands for a text. -/
def StringText (text : List Char) (s : String) : Prop :=
  ∃ ws, Letters ws s.toList ∧ text = '\x22' :: (ws ++ ['\x22'])

/-- A truth value. -/
inductive BooleanText : List Char → Bool → Prop
  | yes : BooleanText ['t', 'r', 'u', 'e'] true
  | no : BooleanText ['f', 'a', 'l', 's', 'e'] false

/-! ## Lists and objects -/

/-- What stands in front of an item: space, and if the item is not the first one a comma. -/
inductive Lead : Bool → List Char → Prop
  | first {s : List Char} (h : Spaces s) : Lead true s
  | next {s t : List Char} (hs : Spaces s) (ht : Spaces t) : Lead false (s ++ ',' :: t)

/-- Items up to what closes them, from the first one on or from a later one on. -/
inductive Items : Bool → List Char → List (List Char) → Prop
  | nil {first : Bool} {s : List Char} (h : Spaces s) : Items first s []
  | cons {first : Bool} {lead item rest : List Char} {items : List (List Char)}
    (hlead : Lead first lead) (hrest : Items false rest items) :
    Items first (lead ++ (item ++ rest)) (item :: items)

/-- A list of items. -/
def ListText (text : List Char) (items : List (List Char)) : Prop :=
  ∃ inner, Items true inner items ∧ text = '[' :: (inner ++ [']'])

/-- A member of an object: what is written for its name, and its value. -/
def MemberText (item name value : List Char) : Prop :=
  ∃ s t, Spaces s ∧ Spaces t ∧ item = '\x22' :: (name ++ '\x22' :: (s ++ ':' :: (t ++ value)))

/-- An object of members. -/
def ObjectText (text : List Char) (members : List (List Char × List Char)) : Prop :=
  ∃ inner items, Items true inner items ∧
    List.Forall₂ (fun item m => MemberText item m.1 m.2) items members ∧
    text = '\x7b' :: (inner ++ ['\x7d'])

/-- An object whose members' names stand for texts. -/
def NamedText (text : List Char) (members : List (String × List Char)) : Prop :=
  ∃ inner items, Items true inner items ∧
    List.Forall₂ (fun item m => ∃ ws, Letters ws m.1.toList ∧ MemberText item ws m.2) items
      members ∧
    text = '\x7b' :: (inner ++ ['\x7d'])

/-- Any value. -/
inductive ValueText : List Char → Prop
  | null : ValueText ['n', 'u', 'l', 'l']
  | true : ValueText ['t', 'r', 'u', 'e']
  | false : ValueText ['f', 'a', 'l', 's', 'e']
  | number {text : List Char} (h : NumberText text) : ValueText text
  | string {ws : List Char} (h : Body ws) : ValueText ('\x22' :: (ws ++ ['\x22']))
  | list {text : List Char} {items : List (List Char)} (h : ListText text items)
    (hitems : ∀ item ∈ items, ValueText item) : ValueText text
  | object {text : List Char} {members : List (List Char × List Char)}
    (h : ObjectText text members) (hnames : ∀ m ∈ members, Body m.1)
    (hvalues : ∀ m ∈ members, ValueText m.2) : ValueText text

end PayeeProposal.Json
