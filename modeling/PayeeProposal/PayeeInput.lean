import PayeeProposal.Json.Reader

/-!
# The list of payees

Which payee each transmitter of an aggregator is to have, as texts that nothing has been checked
of yet, and its JSON form.
-/

namespace PayeeProposal

/-- A transmitter and the account that is to receive its rewards. -/
structure Assignment where
  transmitter : String
  payee : String
deriving DecidableEq, Repr

/-- The assignments, in order, and whether payees may still lack a token account. -/
structure PayeeInput where
  operators : List Assignment
  allowUnfunded : Bool
deriving DecidableEq, Repr

namespace Json

/-- Reads a field into a partial record, unless the record has it already. -/
def Member.once {σ β : Type} (present : Option β) (reader : Reader β) (put : β → σ) : Member σ :=
  match present with
  | some _ => .repeated
  | none => .known fun s => (reader s).map fun (b, r) => (put b, r)

/-- Reads a field of the list form into a partial record. -/
def fieldReader {σ β : Type} (reader : Reader β) (put : σ → β → σ) : σ → Reader σ :=
  fun sofar s => (reader s).map fun (b, r) => (put sofar b, r)

end Json

namespace Assignment

/-- An assignment of which some fields have been read. -/
structure Partial where
  transmitter : Option String
  payee : Option String

/-- The JSON form: both fields are mandatory. -/
def form : Json.RecordForm Partial Assignment where
  empty := ⟨none, none⟩
  member name p :=
    if name = "transmitter" then
      .once p.transmitter Json.Reader.string fun t => { p with transmitter := some t }
    else if name = "payee" then
      .once p.payee Json.Reader.string fun t => { p with payee := some t }
    else .unknown
  fields :=
    [Json.fieldReader Json.Reader.string fun p t => { p with transmitter := some t },
     Json.fieldReader Json.Reader.string fun p t => { p with payee := some t }]
  complete p :=
    match p.transmitter, p.payee with
    | some transmitter, some payee => some ⟨transmitter, payee⟩
    | _, _ => none

/-- Reads an assignment. -/
def reader : Json.Reader Assignment :=
  Json.Reader.record form

end Assignment

namespace PayeeInput

/-- The payees, in order. -/
def payees (input : PayeeInput) : List String :=
  input.operators.map Assignment.payee

/-- The names under which the second field may be written. -/
def allowNames : List String :=
  ["allowUnfundedPayee", "allowFundRecipient", "allow_unfunded_payee"]

/-- A list of payees of which some fields have been read. -/
structure Partial where
  operators : Option (List Assignment)
  allowUnfunded : Option Bool

/-- The JSON form: an absent field is empty or false. -/
def form : Json.RecordForm Partial PayeeInput where
  empty := ⟨none, none⟩
  member name p :=
    if name = "operators" then
      .once p.operators (Json.Reader.list Assignment.reader) fun l => { p with operators := some l }
    else if allowNames.contains name then
      .once p.allowUnfunded Json.Reader.boolean fun b => { p with allowUnfunded := some b }
    else .unknown
  fields :=
    [Json.fieldReader (Json.Reader.list Assignment.reader) fun p l => { p with operators := some l },
     Json.fieldReader Json.Reader.boolean fun p b => { p with allowUnfunded := some b }]
  complete p := some ⟨p.operators.getD [], p.allowUnfunded.getD false⟩

/-- The list of payees that a JSON text holds. -/
def ofJson (s : String) : Except Json.Failure PayeeInput :=
  Json.parse (Json.Reader.record form) s

end PayeeInput

end PayeeProposal
