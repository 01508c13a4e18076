import NetworkCompiler.Shell.Builtin
import NetworkCompiler.Shell.Word

/-!
# Running scripts

What statements do (`run`) and what a shell makes of a script and its input (`execute`). The
first number of each function bounds the depth of the run, so that every run ends; a run that
reaches the bound is given up.
-/

namespace NetworkCompiler.Shell

open Run

/-- Does something, and something else behind it in any case. -/
def always {α : Type} (cleanup : Run Unit) (action : Run α) : Run α := do
  let a ← try action catch f => do
    cleanup
    throw f
  cleanup
  pure a

/-- The status of a command that is not there. -/
def notFoundStatus : Nat := 127

/-- A number of loops. -/
def loopCount (arguments : List String) : Run Nat :=
  match arguments with
  | [] => pure 1
  | a :: _ =>
    match Text.Chars.natural? a.toList with
    | some (n + 1) => pure (n + 1)
    | _ => fatal

/-- A status that is given, or that of the last command. -/
def givenStatus (arguments : List String) : Run Nat := do
  match arguments with
  | [] => pure (← get).status
  | a :: _ =>
    match Text.Chars.natural? a.toList with
    | some n => if n ≤ 0x7fffffff then pure n else fatal
    | none => fatal

/-- Sets, drops or prints what is run on signals. -/
def trap (arguments : List String) : Run Nat := do
  let arguments := if arguments.head? = some "--" then arguments.drop 1 else arguments
  match arguments with
  | [] =>
    let lines := (← get).traps.map fun (name, action) =>
      "trap -- " ++ quote action ++ " " ++ name ++ "\n"
    Builtin.output (String.join lines)
  | action :: names =>
    let (action, names) : Option String × List String :=
      if names.isEmpty then (none, [action])
      else if action = "-" then (none, names)
      else if (Text.Chars.natural? action.toList).isSome then (none, action :: names)
      else (some action, names)
    let mut status := 0
    for name in names do
      match Builtin.signalName? name with
      | none => status := 1
      | some signal =>
        modify fun p =>
          let others := p.traps.filter (·.1 ≠ signal)
          { p with traps := match action with
              | some action => (signal, action) :: others
              | none => others }
    pure status

/-- The status of shells in the background. -/
def await (arguments : List String) : Run Nat := do
  match arguments.getLast? with
  | none => pure 0
  | some a =>
    match Text.Chars.natural? a.toList with
    | none => fault
    | some n => pure (((← get).jobs.lookup n).getD notFoundStatus)

/-- Says where the commands of some names are. -/
def locateCommands (names : List String) : Run Nat := do
  let mut status := 0
  for name in names do
    let own := ["eval", "exec", "exit", "return", "break", "continue", "trap", "wait", "command",
      "kill", "."]
    let isFunction := (← get).functions.any (·.1 = name)
    if name = "cat" then
      let _ ← Builtin.output "/usr/bin/cat\n"
    else if isFunction || name ∈ own || (Builtin.builtin? name).isSome then
      let _ ← Builtin.output (name ++ "\n")
    else status := notFoundStatus
  pure status

/-- One round of a loop, which says whether the loop goes on. -/
def round (action : Run Bool) : Run Bool :=
  try action catch
    | .leaveLoops d => if d ≤ 1 then pure false else throw (.leaveLoops (d - 1))
    | .nextRound d => if d ≤ 1 then pure true else throw (.nextRound (d - 1))
    | f => throw f

/-- Redirects a channel. -/
def redirect (capture : String → Run String) (r : Redirection) : Run Unit := do
  match r.kind with
  | .read =>
    match ← content? (← textOf capture r.target) with
    | some s => setChannel r.channel (some (← newSource s))
    | none => fault
  | .write => setChannel r.channel (some (← openToWrite false (← textOf capture r.target)))
  | .append => setChannel r.channel (some (← openToWrite true (← textOf capture r.target)))
  | .copy =>
    let target ← textOf capture r.target
    if target = "-" then setChannel r.channel none
    else
      match Text.Chars.natural? target.toList with
      | some n =>
        match ← channel? n with
        | some c => setChannel r.channel (some c)
        | none => fault
      | none => fault
  | .document =>
    let s := Piece.join (← piecesOf capture true r.target)
    setChannel r.channel (some (← newSource s))

/-- Does something with channels redirected. -/
def withRedirections {α : Type} (capture : String → Run String) (rs : List Redirection)
    (action : Run α) : Run α := do
  let channels := (← get).channels
  always (modify fun p => { p with channels := channels }) do
    rs.forM (redirect capture)
    action

/-- Ends the shell on a failure, if that is wanted and nothing asks for the status. -/
def checkFailure (tested : Bool) : Run Unit := do
  let p ← get
  if p.exitsOnFailure && !tested && p.status ≠ 0 then throw (.exit p.status)

mutual

/-- Runs a statement. `tested` says whether something asks for its status. -/
def run : Nat → Bool → Statement → Run Unit
  | 0, _, _ => throw .exhausted
  | fuel + 1, tested, s => do
    match s with
    | .nothing => setStatus 0
    | .simple assignments words redirections => do
      command fuel tested assignments words redirections
      checkFailure tested
    | .redirected body redirections =>
      try withRedirections (capture fuel) redirections (run fuel tested body) catch
        | .fault false => do
          setStatus faultStatus
          checkFailure tested
        | f => throw f
    | .pipeline stages => do
      stagesFrom fuel tested stages
      checkFailure tested
    | .negate body => do
      run fuel true body
      modify fun p => { p with status := if p.status = 0 then 1 else 0 }
    | .both l r => do
      run fuel true l
      if (← get).status = 0 then run fuel tested r
    | .either l r => do
      run fuel true l
      if (← get).status ≠ 0 then run fuel tested r
    | .sequence l r => do
      run fuel tested l
      run fuel tested r
    | .background body => do
      isolated do
        setChannel 0 (some .nowhere)
        subshell fuel (run fuel false body)
      modify fun p =>
        { p with jobs := (processNumber + 1 + p.jobs.length, p.status) :: p.jobs, status := 0 }
    | .subshell body => do
      isolated (subshell fuel (run fuel tested body))
      checkFailure tested
    | .branch test yes no => do
      run fuel true test
      run fuel tested (if (← get).status = 0 then yes else no)
    | .loop goal test body => do
      let depth := (← get).loopDepth
      always (modify fun p => { p with loopDepth := depth }) do
        modify fun p => { p with loopDepth := depth + 1 }
        rounds fuel tested goal test body 0
    | .forEach name words body => do
      let values ← match words with
        | some ws => fieldsOf (capture fuel) ws
        | none => pure (← get).arguments
      let depth := (← get).loopDepth
      always (modify fun p => { p with loopDepth := depth }) do
        modify fun p => { p with loopDepth := depth + 1 }
        setStatus 0
        eachOf fuel tested name values body
    | .choose word branches => do
      let s ← textOf (capture fuel) word
      setStatus 0
      chosen fuel tested s.toList branches
    | .define name body => do
      modify fun p =>
        { p with functions := (name, body) :: p.functions.filter (·.1 ≠ name), status := 0 }

/-- Runs the stages of a pipeline, each in a shell of its own. -/
def stagesFrom : Nat → Bool → List Statement → Run Unit
  | 0, _, _ => throw .exhausted
  | _ + 1, _, [] => pure ()
  | fuel + 1, tested, [s] => isolated (subshell fuel (run fuel tested s))
  | fuel + 1, tested, s :: rest => do
    let n ← newSink
    isolated do
      setChannel 1 (some (.sink n))
      subshell fuel (run fuel tested s)
    let source ← newSource (← collected n)
    isolated do
      setChannel 0 (some source)
      stagesFrom fuel tested rest

/-- Runs the rounds of a loop; `last` is the status of the round before. -/
def rounds : Nat → Bool → Bool → Statement → Statement → Nat → Run Unit
  | 0, _, _, _, _, _ => throw .exhausted
  | fuel + 1, tested, goal, test, body, last => do
    let more ← round do
      run fuel true test
      if ((← get).status = 0) = goal then
        run fuel tested body
        pure true
      else
        setStatus last
        pure false
    if more then rounds fuel tested goal test body (← get).status

/-- Runs the rounds of a loop over values. -/
def eachOf : Nat → Bool → String → List String → Statement → Run Unit
  | 0, _, _, _, _ => throw .exhausted
  | _ + 1, _, _, [], _ => pure ()
  | fuel + 1, tested, name, v :: values, body => do
    assign name v
    let more ← round do
      run fuel tested body
      pure true
    if more then eachOf fuel tested name values body

/-- Runs the first branch that a text matches. -/
def chosen : Nat → Bool → List Char → List (List Word × Statement) → Run Unit
  | 0, _, _, _ => throw .exhausted
  | _ + 1, _, _, [] => pure ()
  | fuel + 1, tested, cs, (words, body) :: branches => do
    let matched ← words.anyM fun w => return (← patternOf (capture fuel) w).isMatch cs
    if matched then run fuel tested body else chosen fuel tested cs branches

/-- Runs something as a shell within the shell: signals and loops are forgotten, and what the
inner shell wants at its end is run. -/
def subshell : Nat → Run Unit → Run Unit
  | 0, _ => throw .exhausted
  | fuel + 1, action => do
    modify fun p => { p with traps := p.traps.filter (·.2.isEmpty), loopDepth := 0 }
    ending fuel action

/-- Runs something up to the end of a shell, with what the shell wants at its end. -/
def ending : Nat → Run Unit → Run Unit
  | 0, _ => throw .exhausted
  | fuel + 1, action => do
    let last (action : Run Unit) : Run Nat := do
      try
        action
        pure (← get).status
      catch
        | .exit n => pure n
        | .leaveFunction n => pure n
        | .fault _ => pure faultStatus
        | .leaveLoops _ => pure 0
        | .nextRound _ => pure 0
        | f => throw f
    let status ← last action
    setStatus status
    match (← get).traps.lookup "EXIT" with
    | none => pure ()
    | some action =>
      modify fun p => { p with traps := p.traps.filter (·.1 ≠ "EXIT") }
      let status ← last do
        script fuel false action
        setStatus status
      setStatus status

/-- The output of a script. -/
def capture : Nat → String → Run String
  | 0, _ => throw .exhausted
  | fuel + 1, text => do
    let before := (← get).status
    let n ← newSink
    isolated do
      setChannel 1 (some (.sink n))
      subshell fuel (script fuel false text)
    modify fun p => { p with captured := some p.status, status := before }
    pure (String.ofList ((← collected n).toList.filter (· ≠ '\x00')))

/-- Runs a simple command. -/
def command : Nat → Bool → List (String × Word) → List Word → List Redirection → Run Unit
  | 0, _, _, _, _ => throw .exhausted
  | fuel + 1, tested, assignments, words, redirections => do
    modify fun p => { p with captured := none }
    let fields ← fieldsOf (capture fuel) words
    let assignAll : Run Unit := assignments.forM fun (name, value) => do
      assign name (← textOf (capture fuel) value)
    match fields with
    | [] => do
      try withRedirections (capture fuel) redirections assignAll catch
        | .fault false => modify fun p => { p with captured := some faultStatus }
        | f => throw f
      modify fun p => { p with status := p.captured.getD 0 }
    | ["exec"] => do
      assignAll
      try redirections.forM (redirect (capture fuel)) catch
        | .fault _ => fatal
        | f => throw f
      setStatus 0
    | name :: arguments => do
      let special := Builtin.isSpecial name
      let before ← assignments.mapM fun (name, _) => return (name, ← valueOf? name)
      let perform : Run Unit := withRedirections (capture fuel) redirections do
        assignAll
        invoke fuel tested true name arguments
      if special then
        try perform catch
          | .fault _ => fatal
          | f => throw f
      else
        always (before.forM fun (name, value) => restore name value) do
          try perform catch
            | .fault false => setStatus faultStatus
            | f => throw f

/-- Runs a command of a name. `functions` says whether a function may have that name. -/
def invoke : Nat → Bool → Bool → String → List String → Run Unit
  | 0, _, _, _, _ => throw .exhausted
  | fuel + 1, tested, functions, name, arguments => do
    let named := (← get).functions.lookup name
    match if functions && !(Builtin.isSpecial name) then named else none with
    | some body => call fuel tested body arguments
    | none =>
      match name with
      | "eval" => do
        setStatus 0
        script fuel tested (Text.joinWith " " arguments)
      | "." =>
        match arguments with
        | path :: _ =>
          match ← content? path with
          | some text => do
            setStatus 0
            try script fuel tested text catch
              | .leaveFunction n => setStatus n
              | f => throw f
          | none => fatal
        | [] => fatal
      | "exec" =>
        match arguments with
        | name :: rest => do
          invoke fuel tested false name rest
          modify fun p => { p with traps := [] }
          throw (.exit (← get).status)
        | [] => setStatus 0
      | "exit" => do throw (.exit (← givenStatus arguments))
      | "return" => do throw (.leaveFunction (← givenStatus arguments))
      | "break" => do
        let n ← loopCount arguments
        let depth := (← get).loopDepth
        setStatus 0
        if depth > 0 then throw (.leaveLoops (min n depth))
      | "continue" => do
        let n ← loopCount arguments
        let depth := (← get).loopDepth
        setStatus 0
        if depth > 0 then throw (.nextRound (min n depth))
      | "trap" => do setStatus (← trap arguments)
      | "wait" => do setStatus (← await arguments)
      | "command" =>
        match arguments with
        | "-v" :: names => do setStatus (← locateCommands names)
        | "--" :: name :: rest => invoke fuel tested false name rest
        | "-p" :: name :: rest => invoke fuel tested false name rest
        | name :: rest => invoke fuel tested false name rest
        | [] => setStatus 0
      | "kill" =>
        match Builtin.signalRequest? arguments with
        | none => fault
        | some (signal, targets) => do
          if targets.isEmpty then fault
          setStatus 0
          targets.forM fun t => do
            if t = toString processNumber then
              match ← Builtin.receive signal with
              | some action => do
                script fuel false action
                setStatus 0
              | none => pure ()
            else
              match Text.Chars.natural? t.toList with
              | some _ => setStatus 1
              | none => fault
      | name =>
        match Builtin.builtin? name with
        | some action => do setStatus (← action arguments)
        | none => setStatus notFoundStatus

/-- Runs a function. -/
def call : Nat → Bool → Statement → List String → Run Unit
  | 0, _, _, _ => throw .exhausted
  | fuel + 1, tested, body, arguments => do
    let before := ← get
    modify fun p =>
      { p with arguments := arguments, locals := [] :: p.locals, loopDepth := 0 }
    let cleanup : Run Unit := do
      let frame := (← get).locals.headD []
      frame.forM fun (name, value) => restore name value
      modify fun p =>
        { p with arguments := before.arguments, locals := before.locals,
                 loopDepth := before.loopDepth }
    always cleanup do
      try run fuel tested body catch
        | .leaveFunction n => setStatus n
        | f => throw f

/-- Runs the text of a script in the shell itself. -/
def script : Nat → Bool → String → Run Unit
  | 0, _, _ => throw .exhausted
  | fuel + 1, tested, text => do
    let (ts, documents) := tokens text
    linesFrom fuel tested ⟨ts, documents⟩

/-- Runs the lines of a script; a fault of syntax ends the shell. -/
def linesFrom : Nat → Bool → TokenSource → Run Unit
  | 0, _, _ => throw .exhausted
  | fuel + 1, tested, source => do
    match readLine? source with
    | none => fatal
    | some none => pure ()
    | some (some (s, rest)) => do
      run fuel tested s
      linesFrom fuel tested rest

end

/-! ## From outside -/

/-- How a shell ended. -/
inductive Ending where
  | status (n : Nat)
  /-- By a signal. -/
  | killed
  /-- The run was given up. -/
  | exhausted
  deriving DecidableEq, Repr

/-- The number that an end is told by; one by a signal has the greatest. -/
def Ending.code : Ending → Nat
  | status n => n
  | killed => 255
  | exhausted => 255

/-- A text as a row of its bytes. -/
def ofBytes (bytes : ByteArray) : String :=
  String.ofList (bytes.toList.map fun b => Char.ofNat b.toNat)

/-- The bytes that a row of bytes stands for. -/
def toBytes (s : String) : ByteArray :=
  ByteArray.mk (s.toList.map fun c => UInt8.ofNat c.toNat).toArray

/-- What a shell writes while it runs a script, and how it ends. -/
def execute (fuel : Nat) (text : String) (input : ByteArray) : Ending × ByteArray :=
  let start : Process :=
    { channels := [(0, .source 0), (1, .sink 0), (2, .nowhere)],
      sources := #[ofBytes input], sinks := #[""] }
  let (result, p) := (ending fuel (script fuel false (ofBytes text.toUTF8))).run start
  let end_ := match result with
    | .ok () => Ending.status (p.status % 256)
    | .error .killed => .killed
    | .error _ => .exhausted
  (end_, toBytes (p.sinks[0]?.getD ""))

end NetworkCompiler.Shell
