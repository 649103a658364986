import Rota.Shell.Invocation

/-!
# Running commands

* `Evaluation.simple`      expands words, redirects channels, gives variables values, and runs;
* `Evaluation.pipeline`    runs commands that read what the one before them wrote;
* `Evaluation.loop`        repeats commands;
* `Evaluation.script`      runs a script line by line;
* `runTask`                runs any task; tasks may be inside each other as deep as its number.

The commands of a pipeline are run one after the other, but their time passes side by side.  A
command that never ends is ended when the one that reads from it is done.
-/

namespace Rota.Shell

open Text Program

namespace Evaluation

section
variable (run : Runner)

/-! ## signals -/

def receive (n : Nat) : Act Unit := do
  let s ← get
  match if n = Signal.kill || n = Signal.stop then none else s.traps.lookup n with
  | some [] => return
  | some action =>
    let _ ← run (.script {} action)
    modify fun t => { t with status := s.status }
  | none =>
    match Signal.effect n with
    | .nothing => return
    | .halts => throw .endless
    | .ends => throw (.killed n)

def deliver : Act Unit := do
  let s ← get
  if s.world.signals = [] then return
  let mine := s.world.signals.filter fun x => x.1 = s.process
  Act.world fun w => { w with signals := w.signals.filter fun x => x.1 != s.process }
  mine.forM fun x => receive run x.2

/-! ## simple commands -/

def takesAssignments (words : List Raw) : Bool :=
  match words.dropWhile (· = raw "command") with
  | name :: _ => name = raw "export" || name = raw "readonly" || name = raw "local"
  | [] => false

def expand : List Raw → List Word → Act (List Raw)
  | done, [] => return done
  | done, w :: ws => do
    let here ← match takesAssignments done, Word.assignment? w with
      | true, some (name, value) => do
        pure [name ++ '=' :: (← Expansion.valueText run value)]
      | _, _ => Expansion.ofWord run w
    expand (done ++ here) ws

def assignAll (isExported : Bool) : List (Raw × Word) → Act (List Raw)
  | [] => return []
  | (name, w) :: rest => do
    let value ← Expansion.valueText run w
    Act.assign name value isExported
    return (name ++ '=' :: value) :: (← assignAll isExported rest)

/-- tells what is about to be run, where the error channel led before the redirections -/
def trace (h : Option Handle) (words : List Raw) : Act Unit := do
  let s ← get
  if s.has 'x' then
    let front := (s.value? (raw "PS4")).getD (raw "+ ")
    let _ ← Act.emit h (front ++ Raw.joined [' '] words ++ ['\n'])

def withVariables (names : List Raw) (act : Act Nat) : Act Nat :=
  guarded (fun s t => names.foldl (fun t name => t.put name (s.named? name)) t) act

/-- runs a command whose words are known, where its variables keep their values -/
def runWords (p : Place) (assigned : List (Raw × Word)) (h : Option Handle) (words : List Raw) :
    Act Nat := do
  match words with
  | [] =>
    let given ← assignAll run false assigned
    trace h given
    return (← get).outputStatus
  | name :: args =>
    let s ← get
    let isFunction := (s.functions.lookup name).isSome
    let isSpecial := isSpecialName name && !isFunction
    let act : Act Nat := do
      let given ← assignAll run (!isSpecial || (name = raw "exec" && args ≠ [])) assigned
      trace h (given ++ words)
      Invocation.all run p name args
    if isSpecial then act else withVariables (assigned.map (·.1)) act

def simple (p : Place) (line : Nat) (assigned : List (Raw × Word)) (ws : List Word)
    (rs : List Redirect) : Act Nat := do
  modify fun s => { s with line := line, outputStatus := 0 }
  let words ← expand run [] ws
  let s ← get
  let isFunction := match words with
    | name :: _ => (s.functions.lookup name).isSome
    | [] => false
  let isSpecial := !isFunction && (match words with
    | name :: _ => isSpecialName name
    | [] => false)
  let act : Act Nat := do
    if ← Redirection.succeeds run rs then
      let (n, stop) ← caught (runWords run p assigned (s.channel? 2) words)
      match stop with
      | none => return n
      | some .fails =>
        let isOwn := !isSpecial && !isFunction && (match words with
          | name :: _ => Builtin.isName name
          | [] => false)
        if isOwn then return 2 else throw .fails
      | some stop => throw stop
    else if isSpecial then throw .fails
    else return 2
  if words = [raw "exec"] then act else withChannels act

/-! ## processes -/

def background (c : Command) : Act Nat := do
  let start := (← get).world.clock
  Act.world fun w => w.pass startMicros
  let (ending, process) ← asProcess (fun s => s.setChannel 0 (some .null))
    (finish run (run (.command { isLast := true } c)))
  modify fun s =>
    let time := if ending = .endless then never else s.world.clock
    { s with
      jobs := s.jobs ++ [⟨process, time, ending⟩]
      lastJob := some process
      world := { s.world with clock := start } }
  return 0

def subshell (p : Place) (line : Nat) (c : Command) (rs : List Redirect) : Act Nat := do
  modify fun s => { s with line := line }
  let act : Act Nat := do
    Redirection.applyAll run rs
    run (.command { isTested := p.isTested, isLast := true } c)
  if p.isLast && (← get).traps = [] then act
  else
    let (ending, _) ← asProcess id (finish run act)
    Invocation.statusOf ending

/-- what is known of a command of a pipeline that was run -/
structure Stage where
  ending : Ending
  sink : Option Nat
  endsAt : Nat
  processes : Nat × Nat

def stages (p : Place) (start : Nat) : Option Handle → List Command → Act (List Stage)
  | _, [] => return []
  | input, c :: cs => do
    Act.world fun w => { w with clock := start }
    let sink? ← match cs with
      | [] => pure none
      | _ => do
        let s ← get
        let (w, n) := s.world.addSink
        set { s with world := w }
        pure (some n)
    let change (s : State) : State :=
      let s := s.setChannel 0 input
      match sink? with
      | some n => s.setChannel 1 (some (.writes n))
      | none => s
    let (ending, process) ← asProcess change
      (finish run (run (.command { isTested := p.isTested, isLast := true } c)))
    let s ← get
    let next : Option Handle ← match sink? with
      | none => pure none
      | some n => do
        let sink := s.world.sink n
        let tail := if ending = .endless && sink.tail = .ends then .hangs else sink.tail
        let (w, k) := s.world.addSource
          { stream := .ok ⟨sink.text, tail⟩
            arrivals := sink.arrivals
            endsAt := if never ≤ sink.heldUntil then s.world.clock else sink.heldUntil }
        set { s with world := w }
        pure (some (.reads k))
    let rest ← stages p start next cs
    return ⟨ending, sink?, s.world.clock, (process, s.world.processes)⟩ :: rest

/-- when a command of a pipeline ends, whose reader ends at a moment: it is ended when it writes
after that.  There is no answer if it never ends. -/
def stageEnd (w : World) (s : Stage) (readerEnd : Option Nat) : Option Nat :=
  let own := if s.ending = .endless then none else some s.endsAt
  match s.sink, readerEnd with
  | some n, some time =>
    let sink := w.sink n
    match sink.writtenAfter s.processes.1 time, own with
    | some t, some e => some (min t e)
    | some t, none => some t
    | none, some e => some e
    | none, none => if sink.isEmpty && sink.tail = .ends then none else some time
  | _, _ => own

def stageEnds (w : World) : List Stage → List (Stage × Option Nat)
  | [] => []
  | s :: rest =>
    let ends := stageEnds w rest
    (s, stageEnd w s ((ends.head?.map (·.2)).getD none)) :: ends

/-- ends a command of a pipeline that does not end before a moment by itself -/
def endStage (w : World) (s : Stage) (time : Nat) : World :=
  if s.ending ≠ .endless && decide (s.endsAt ≤ time) then w
  else
    let isMeant (n : Nat) : Bool := decide (s.processes.1 ≤ n) && decide (n ≤ s.processes.2)
    { w with sinks := w.sinks.map fun k => k.cutProcesses isMeant time }

def pipeline (p : Place) (cs : List Command) : Act Nat := do
  let s ← get
  let ss ← stages run p s.world.clock (s.channel? 0) cs
  let ends := stageEnds (← get).world ss
  if ends.any fun e => e.2.isNone then throw .endless
  Act.world fun w =>
    let w := ends.foldl (fun w e => endStage w e.1 (e.2.getD 0)) w
    { w with clock := ends.foldl (fun t e => max t (e.2.getD 0)) s.world.clock }
  match ss.getLast? with
  | some last => Invocation.statusOf last.ending
  | none => return 0

/-! ## loops -/

/-- how a round of a loop ends -/
inductive Round where
  | goesOn (status : Nat)
  | ends (status : Nat)

def roundOf (status : Nat) (n : Nat) : Option Stop → Act Round
  | none => return .goesOn n
  | some (.breaks k) => if k ≤ 1 then return .ends status else throw (.breaks (k - 1))
  | some (.continues k) => if k ≤ 1 then return .goesOn status else throw (.continues (k - 1))
  | some stop => throw stop

def round (p : Place) (isUntil : Bool) (test body : Command) (status : Nat) : Act Round := do
  let (n, stop) ← caught (run (.command { isTested := true } test))
  match stop with
  | some stop => roundOf status n (some stop)
  | none =>
    if (n = 0) = isUntil then return .ends status
    else
      let (n, stop) ← caught (run (.command { isTested := p.isTested } body))
      roundOf status n stop

def loop (p : Place) (isUntil : Bool) (test body : Command) : Nat → Nat → Act Nat
  | 0, _ => throw .endless
  | rounds + 1, status => do
    let w := (← get).world
    if w.deadline < w.clock then throw .endless
    match ← round run p isUntil test body status with
    | .goesOn status => loop p isUntil test body rounds status
    | .ends status => return status

def each (p : Place) (name : Raw) (body : Command) : List Raw → Nat → Act Nat
  | [], status => return status
  | r :: rest, status => do
    Act.assign name r false
    let (n, stop) ← caught (run (.command { isTested := p.isTested } body))
    match ← roundOf status n stop with
    | .goesOn status => each p name body rest status
    | .ends status => return status

def looping (act : Act Nat) : Act Nat :=
  guarded (fun s t => { t with loops := s.loops }) do
    modify fun s => { s with loops := s.loops + 1 }
    act

/-- more rounds than any loop that ends in time has -/
def mostRounds : Nat := 200000

/-! ## choices -/

def matchesAny (r : Raw) : List Word → Act Bool
  | [] => return false
  | w :: ws => do
    let p ← Expansion.patternOf run w
    if Pattern.holds (Pattern.items p) r then return true else matchesAny r ws

def choose (p : Place) (r : Raw) : List (List Word × Option Command) → Act Nat
  | [] => return 0
  | (ws, c) :: rest => do
    if ← matchesAny run r ws then
      match c with
      | some c => run (.command p c)
      | none => return 0
    else choose p r rest

/-! ## commands -/

def leaveOnFault (p : Place) (n : Nat) : Act Nat := do
  if n ≠ 0 && !p.isTested && (← get).has 'e' then throw (.exits n) else return n

def perform (p : Place) : Command → Act Nat
  | .simple line assigned ws rs => do leaveOnFault p (← simple run p line assigned ws rs)
  | .negated c => do
    let n ← run (.command { isTested := true } c)
    return if n = 0 then 1 else 0
  | .both c d => do
    let n ← run (.command { isTested := true } c)
    if n = 0 then run (.command p d) else return n
  | .either c d => do
    let n ← run (.command { isTested := true } c)
    if n = 0 then return n else run (.command p d)
  | .sequence c d => do
    let _ ← run (.command { isTested := p.isTested } c)
    run (.command p d)
  | .pipeline cs => do leaveOnFault p (← pipeline run p cs)
  | .background c => background run c
  | .subshell line c rs => do leaveOnFault p (← subshell run p line c rs)
  | .redirected line c rs => do
    modify fun s => { s with line := line }
    withChannels do
      if ← Redirection.succeeds run rs then run (.command { isTested := p.isTested } c)
      else return 2
  | .conditional test body otherwise => do
    let n ← run (.command { isTested := true } test)
    if n = 0 then run (.command p body)
    else
      match otherwise with
      | some c => run (.command p c)
      | none => return 0
  | .loop isUntil test body => looping (loop run p isUntil test body mostRounds 0)
  | .each line name ws body => do
    modify fun s => { s with line := line }
    let words ← Expansion.words run ws
    looping (each run p name body words 0)
  | .choice line w cases => do
    modify fun s => { s with line := line }
    choose run p (← Expansion.text run w) cases
  | .define name body => do
    modify fun s =>
      { s with functions := (name, body) :: s.functions.filter fun f => f.1 != name }
    return 0

def command (p : Place) (c : Command) : Act Nat := do
  if (← get).has 'n' then return 0
  deliver run
  let n ← perform run p c
  modify fun s => { s with status := n }
  deliver run
  return n

/-! ## scripts -/

def lines (p : Place) : Nat → Cursor → Nat → Act Nat
  | 0, _, status => return status
  | fuel + 1, c, status => do
    let s ← get
    match Parser.next? { c with documents := s.documents, aliases := s.aliases } with
    | .error f =>
      modify fun s => { s with line := f.line }
      Act.fail f.text
    | .ok none => return status
    | .ok (some l) =>
      modify fun s => { s with documents := l.cursor.documents }
      let n ← match l.command with
        | some c => run (.command { p with isLast := p.isLast && l.isLast } c)
        | none => pure status
      lines p fuel l.cursor n

def script (p : Place) (r : Raw) : Act Nat := lines run p (r.length + 2) { rest := r } 0

/-! ## shells -/

structure Request where
  takesText : Bool := false
  rest : List Raw := []

/-- the letters of one argument; the answer says whether a script is among the arguments, and
whether the next argument is the name of an option -/
def startLetters (isSet : Bool) : Raw → Act (Bool × Bool)
  | [] => return (false, false)
  | 'c' :: r => do
    let (_, needsName) ← startLetters isSet r
    return (true, needsName)
  | 'l' :: r => startLetters isSet r
  | 'o' :: r => do
    let (takesText, _) ← startLetters isSet r
    return (takesText, true)
  | c :: r => do
    Builtin.setLetter c isSet
    startLetters isSet r

def startOptions : Bool → List Raw → Act Request
  | takesText, [] => return ⟨takesText, []⟩
  | takesText, r :: rest => do
    let isSet? := match r with
      | '-' :: _ => some true
      | '+' :: _ => some false
      | _ => none
    if r = ['-'] || r = ['-', '-'] then return ⟨takesText, rest⟩
    else
      match isSet?, r with
      | some isSet, _ :: cs =>
        let (more, needsName) ← startLetters isSet cs
        match needsName, rest with
        | true, name :: rest =>
          Builtin.setNamed name isSet
          startOptions (takesText || more) rest
        | true, [] =>
          Builtin.showOptions isSet
          return ⟨takesText || more, []⟩
        | false, rest => startOptions (takesText || more) rest
      | _, _ => return ⟨takesText, r :: rest⟩

def ownVariables : List (Raw × Variable) :=
  [("IFS", " \t\n"), ("OPTIND", "1"), ("PS1", "$ "), ("PS2", "> "), ("PS4", "+ ")].map fun v =>
    (raw v.1, { value := some (raw v.2) })

def begin (name : Raw) (s : State) : State where
  name := name
  vars :=
    ownVariables ++ s.vars.filter fun v => v.2.isExported && (ownVariables.lookup v.1).isNone
  process := s.process
  mainProcess := s.process
  mask := s.mask
  traps := s.traps
  channels := s.channels
  world := s.world

def inputText : Act Raw := do
  let s ← get
  match s.channel? 0 with
  | none => return []
  | some h =>
    match (s.world.source h).stream with
    | .error _ => return []
    | .ok stream =>
      if stream.tail ≠ .ends then throw .endless
      Act.world fun w => w.leave h { stream := {}, sawEnd := true }
      return stream.text

def shell (name : Raw) (args : List Raw) : Act Nat := do
  modify (begin name)
  let q ← startOptions false args
  if q.takesText then
    match q.rest with
    | [] => Act.fail (raw "-c requires an argument")
    | text :: rest =>
      modify fun s => { s with name := rest.headD s.name, args := rest.tail }
      script run { isLast := true } text
  else if (← get).has 's' || q.rest = [] then
    modify fun s => { s with args := q.rest, options := Builtin.withLetter s.options 's' true }
    script run {} (← inputText)
  else
    let path := q.rest.headD []
    let s ← get
    match s.world.content s.channels path with
    | .error f => Redirection.cannot .read path f
    | .ok stream =>
      set { s with name := path, args := q.rest.tail }
      match stream with
      | .ok stream => script run {} stream.text
      | .error _ => return 0

end

end Evaluation

def runWith (run : Runner) : Runner
  | .command p c => Evaluation.command run p c
  | .script p r => Evaluation.script run p r
  | .shell name args => Evaluation.shell run name args

/-- runs a task; tasks may be inside each other as deep as the number says -/
def runTask : Nat → Runner
  | 0 => fun _ => throw (.killed Signal.overflow)
  | depth + 1 => runWith (runTask depth)

end Rota.Shell
