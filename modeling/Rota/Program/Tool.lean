import Rota.Program.Cat
import Rota.Program.Echo
import Rota.Program.Head
import Rota.Program.Sleep
import Rota.Program.Tr

/-!
# Tools

* `Tool`          the programs that can be started;
* `Tool.run?`     what a tool leaves behind; the shell is no function of its input alone.
-/

namespace Rota.Program

open Text

inductive Tool where
  | sh
  | echo
  | trueTool
  | falseTool
  | sleep
  | head
  | tr
  | cat
deriving DecidableEq, Repr

namespace Tool

def name : Tool → String
  | .sh => "sh"
  | .echo => "echo"
  | .trueTool => "true"
  | .falseTool => "false"
  | .sleep => "sleep"
  | .head => "head"
  | .tr => "tr"
  | .cat => "cat"

def all : List Tool := [.sh, .echo, .trueTool, .falseTool, .sleep, .head, .tr, .cat]

def ofName? (r : Raw) : Option Tool := all.find? fun t => t.name.toList = r

/-- what a tool leaves behind; there is no answer for the shell -/
def run? (t : Tool) (args : List Raw) (input : Input) : Option Outcome :=
  match t with
  | .sh => none
  | .echo => some (Echo.run args)
  | .trueTool => some {}
  | .falseTool => some { status := 1 }
  | .sleep => some (Sleep.run args)
  | .head => some (Head.run args input)
  | .tr => some (Tr.run args input)
  | .cat => some (Cat.run args input)

end Tool

end Rota.Program
