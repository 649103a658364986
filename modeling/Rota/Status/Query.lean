import Rota.Json.Writer
import Rota.Status.Registry
import Rota.Text.Blank

/-!
# Questions to the registry

A question is a line of words: `list`, or one of `getconfig`, `getstats` and `getstatus` with the
name of a module.  Further words do not count.

* `Query.parse`       the question of a line;
* `Registry.query`    the answer as a value, or what is wrong with the question;
* `Registry.handle`   the answer as a text.
-/

namespace Rota

open Text

inductive QueryError where
  | unknownCommand (word : String)
  | missingArgument
  | moduleNotFound (name : String)
deriving DecidableEq, Repr

def QueryError.message : QueryError → String
  | .unknownCommand word => "Unknown command: " ++ word
  | .missingArgument => "Missing argument: module"
  | .moduleNotFound name => "Module not found: " ++ name

inductive Topic where
  | config
  | stats
  | status
deriving DecidableEq, Repr

inductive Query where
  | list
  | about (topic : Topic) (module : String)
deriving DecidableEq, Repr

def Topic.ofCommand? (command : String) : Option Topic :=
  if command = "getconfig" then some .config
  else if command = "getstats" then some .stats
  else if command = "getstatus" then some .status
  else none

/-- the question of a line; without any word the command is the empty text -/
def Query.parse (line : String) : Except QueryError Query :=
  let words := words line.toList
  let command := String.ofList (words.head?.getD [])
  if command = "list" then .ok .list
  else
    match Topic.ofCommand? command with
    | none => .error (.unknownCommand command)
    | some topic =>
      match words[1]? with
      | none => .error .missingArgument
      | some name => .ok (.about topic (String.ofList name))

def Topic.answer (t : Topic) (s : ModuleStatus) : Json :=
  match t with
  | .config => .obj [("module", .str s.module), ("schedule", s.schedule.toJson)]
  | .stats =>
    .obj
      [("module", .str s.module), ("next_run_time", .ofOption Stamp.toJson s.nextRun),
       ("state", .str s.state.name), ("stats", s.stats.toJson)]
  | .status => s.toJson

namespace Registry

def answer (r : Registry) : Query → Except QueryError Json
  | .list => .ok (.arr (r.names.map .str))
  | .about topic name =>
    match r.get? name with
    | some status => .ok (topic.answer status)
    | none => .error (.moduleNotFound name)

def query (r : Registry) (line : String) : Except QueryError Json :=
  (Query.parse line).bind r.answer

/-- an answer in its envelope: `0` and the data, or `1` and the message -/
def envelope : Except QueryError Json → Json
  | .ok data => .obj [("data", data), ("error", .int 0)]
  | .error e => .obj [("error", .int 1), ("message", .str e.message)]

def handle (r : Registry) (line : String) : String := (envelope (r.query line)).text

end Registry

end Rota
