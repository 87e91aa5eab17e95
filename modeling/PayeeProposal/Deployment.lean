import PayeeProposal.Cause
import PayeeProposal.PayeeInput

/-!
# The deployment description

Which operators serve each aggregator, and which addresses each operator has. The payees of an
aggregator follow from it: one assignment for each of its oracles, from the first node address of
the oracle's operator to that operator's admin address.
-/

namespace PayeeProposal

/-- An operator: the addresses of its nodes and the address that administers it. -/
structure Operator where
  nodeAddresses : List String
  adminAddress : String
deriving DecidableEq, Repr

/-- An aggregator: the names of the operators of its oracles, in order. -/
structure Aggregator where
  oracles : List String
deriving DecidableEq, Repr

/-- Aggregators and operators by name. -/
structure Deployment where
  aggregators : List (String × Aggregator)
  operators : List (String × Operator)
deriving DecidableEq, Repr

/-- Why a deployment description gives no list of payees. -/
inductive DeploymentError where
  | unreadable (path : String) (error : FileError)
  | unparsable (path : String) (failure : Json.Failure)
  | unknownAggregator (name : String)
  | unknownOperator (aggregator operator : String)
  | missingNodeAddress (operator : String)
deriving DecidableEq, Repr

/-- What is reported of a failure. -/
def DeploymentError.message (wording : Wording) : DeploymentError → String
  | .unreadable path error => "读取部署描述失败 " ++ path ++ ": " ++ wording (.file error)
  | .unparsable path failure => "解析部署描述失败 " ++ path ++ ": " ++ wording (.json failure)
  | .unknownAggregator name => "部署描述中不存在聚合器 " ++ name
  | .unknownOperator aggregator operator =>
    "聚合器 " ++ aggregator ++ " 引用了未知的运营方 " ++ operator
  | .missingNodeAddress operator => "运营方 " ++ operator ++ " 未配置 ocrNodeAddress"

namespace Operator

/-- An operator of which some fields have been read. -/
structure Partial where
  nodeAddresses : Option (List String)
  adminAddress : Option String

/-- The JSON form: the admin address is mandatory. -/
def form : Json.RecordForm Partial Operator where
  empty := ⟨none, none⟩
  member name p :=
    if name = "ocrNodeAddress" then
      .once p.nodeAddresses (Json.Reader.list Json.Reader.string)
        fun l => { p with nodeAddresses := some l }
    else if name = "adminAddress" then
      .once p.adminAddress Json.Reader.string fun t => { p with adminAddress := some t }
    else .unknown
  fields :=
    [Json.fieldReader (Json.Reader.list Json.Reader.string)
       fun p l => { p with nodeAddresses := some l },
     Json.fieldReader Json.Reader.string fun p t => { p with adminAddress := some t }]
  complete p := p.adminAddress.map fun admin => ⟨p.nodeAddresses.getD [], admin⟩

/-- The address from which the operator transmits: its first node address. -/
def transmitter (operator : Operator) (name : String) : Except DeploymentError String :=
  match operator.nodeAddresses with
  | address :: _ => .ok address
  | [] => .error (.missingNodeAddress name)

end Operator

namespace Aggregator

/-- The JSON form of an oracle, which only names its operator. -/
def oracleForm : Json.RecordForm (Option String) String where
  empty := none
  member name p := if name = "operator" then .once p Json.Reader.string some else .unknown
  fields := [Json.fieldReader Json.Reader.string fun _ t => some t]
  complete p := p

/-- The JSON form: an absent field is empty. -/
def form : Json.RecordForm (Option (List String)) Aggregator where
  empty := none
  member name p :=
    if name = "oracles" then
      .once p (Json.Reader.list (Json.Reader.record oracleForm)) some
    else .unknown
  fields :=
    [Json.fieldReader (Json.Reader.list (Json.Reader.record oracleForm)) fun _ l => some l]
  complete p := some ⟨p.getD []⟩

end Aggregator

namespace Deployment

/-- A description of which some sections have been read. -/
structure Partial where
  aggregators : Option (List (String × Aggregator))
  operators : Option (List (String × Operator))

/-- The JSON form: an absent section is empty. -/
def form : Json.RecordForm Partial Deployment where
  empty := ⟨none, none⟩
  member name p :=
    if name = "contracts" then
      .once p.aggregators (Json.Reader.table (Json.Reader.record Aggregator.form))
        fun t => { p with aggregators := some t }
    else if name = "operators" then
      .once p.operators (Json.Reader.table (Json.Reader.record Operator.form))
        fun t => { p with operators := some t }
    else .unknown
  fields :=
    [Json.fieldReader (Json.Reader.table (Json.Reader.record Aggregator.form))
       fun p t => { p with aggregators := some t },
     Json.fieldReader (Json.Reader.table (Json.Reader.record Operator.form))
       fun p t => { p with operators := some t }]
  complete p := some ⟨p.aggregators.getD [], p.operators.getD []⟩

/-- The description that a JSON text holds. -/
def ofJson (s : String) : Except Json.Failure Deployment :=
  Json.parse (Json.Reader.record form) s

/-- The description in the file at a path. -/
def load (files : Files) (path : String) : Except DeploymentError Deployment :=
  match files.readText path with
  | .error e => .error (.unreadable path e)
  | .ok s =>
    match ofJson s with
    | .error e => .error (.unparsable path e)
    | .ok deployment => .ok deployment

/-- The aggregator of a name. -/
def aggregator (d : Deployment) (name : String) : Except DeploymentError Aggregator :=
  match d.aggregators.lookup name with
  | some a => .ok a
  | none => .error (.unknownAggregator name)

/-- The operator of a name that an aggregator refers to. -/
def operator (d : Deployment) (aggregator name : String) : Except DeploymentError Operator :=
  match d.operators.lookup name with
  | some o => .ok o
  | none => .error (.unknownOperator aggregator name)

/-- The assignment for an oracle of an aggregator. -/
def assignment (d : Deployment) (aggregator oracle : String) :
    Except DeploymentError Assignment := do
  let operator ← d.operator aggregator oracle
  let transmitter ← operator.transmitter oracle
  pure ⟨transmitter, operator.adminAddress⟩

/-- The payees of an aggregator; those without a token account are allowed. -/
def payeeInput (d : Deployment) (name : String) : Except DeploymentError PayeeInput := do
  let aggregator ← d.aggregator name
  let operators ← aggregator.oracles.mapM (d.assignment name)
  pure ⟨operators, true⟩

end Deployment

end PayeeProposal
