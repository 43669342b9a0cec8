import TableGateway.Json.Loose
import TableGateway.Method

/-!
# The role that calls the table service

The role is limited to the actions and tables that the events use. Actions are listed in ascending
order of their names and tables in the order of first use.
-/

namespace TableGateway

structure Role where
  actions : List Action
  tables : List Json
  deriving DecidableEq

namespace Role

/-- The actions in ascending order of their names. -/
def ascending : List Action := [.deleteItem, .getItem, .putItem]

/-- The resource name of a table, with a placeholder for the table's own name. -/
def tableArnText : Text :=
  "arn:$\x7bAWS::Partition\x7d:dynamodb:$\x7bAWS::Region\x7d:$\x7bAWS::AccountId\x7d:" ++
  "table/$\x7btableName\x7d"

/-- The resource name of a table that is given by name or by reference. -/
def tableArn (tableName : Json) : Json := Intrinsic.sub tableArnText [("tableName", tableName)]

/-- The values without those that are the same as an earlier one. -/
def firstUses (seen : List Json) : List Json → List Json
  | [] => []
  | value :: rest =>
      if seen.any fun old => decide (Json.Same old value) then firstUses seen rest
      else value :: firstUses (value :: seen) rest

/-- The events that ask for an action of the enumeration, as actions with their tables. -/
def granted (events : List Event) : List (Action × Json) :=
  events.filterMap fun event => match event.action with
    | .known action => some (action, event.tableName)
    | .other _ => none

/-- The role of a list of events; none when there is nothing to grant. -/
def ofEvents? (events : List Event) : Option Role :=
  let grants := granted events
  if grants.isEmpty then none
  else some ⟨ascending.filter fun action => grants.any (·.1 == action),
    firstUses [] (grants.map Prod.snd)⟩

/-- What a policy statement calls an action. -/
def actionName (action : Action) : Text := "dynamodb:" ++ action.name

def toJson (role : Role) : Json :=
  .obj [("Type", .str "AWS::IAM::Role"),
    ("Properties", .obj [
      ("AssumeRolePolicyDocument", .obj [("Version", .str "2012-10-17"),
        ("Statement", .arr [.obj [("Effect", .str "Allow"),
          ("Principal", .obj [("Service", .str "apigateway.amazonaws.com")]),
          ("Action", .str "sts:AssumeRole")]])]),
      ("Policies", .arr [.obj [("PolicyName", .str "apigatewaytodynamodb"),
        ("PolicyDocument", .obj [("Version", .str "2012-10-17"),
          ("Statement", .arr [.obj [("Effect", .str "Allow"),
            ("Action", .arr (role.actions.map fun action => .str (actionName action))),
            ("Resource", .arr (role.tables.map tableArn))]])])]])])]

end Role

end TableGateway
