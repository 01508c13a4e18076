import NetworkCompiler.Shell.Token

/-!
# Statements of the shell

The syntax tree of a script (`Statement`) and its reader. A script is read one complete line of
statements at a time (`readLine?`), so that everything in front of a fault has been run by the
time the fault is met.
-/

namespace NetworkCompiler.Shell

/-- What a redirection does with a channel. -/
inductive RedirectionKind where
  /-- Reads from a file. -/
  | read
  /-- Writes a file anew. -/
  | write
  /-- Writes behind the content of a file. -/
  | append
  /-- Becomes another name of a channel. -/
  | copy
  /-- Reads the text that is given. -/
  | document
  deriving DecidableEq, Repr, Inhabited

/-- A redirection of a channel. -/
structure Redirection where
  channel : Nat
  kind : RedirectionKind
  /-- The file, the other channel or the text. -/
  target : Word
  deriving Inhabited, Repr

/-- A statement. -/
inductive Statement where
  | nothing
  /-- Assignments and the words of a command, any of them absent. -/
  | simple (assignments : List (String × Word)) (words : List Word)
      (redirections : List Redirection)
  | redirected (body : Statement) (redirections : List Redirection)
  /-- Statements that each read what the one before writes. -/
  | pipeline (stages : List Statement)
  | negate (body : Statement)
  | both (l r : Statement)
  | either (l r : Statement)
  | sequence (l r : Statement)
  | background (body : Statement)
  /-- A statement that leaves the variables as they are. -/
  | subshell (body : Statement)
  | branch (test yes no : Statement)
  /-- Repeats the body as long as the test succeeds, or fails, as `goal` says. -/
  | loop (goal : Bool) (test body : Statement)
  /-- Runs the body for each word; without words, for each argument. -/
  | forEach (name : String) (words : Option (List Word)) (body : Statement)
  /-- Runs the body of the first pattern that the word matches. -/
  | choose (word : Word) (branches : List (List Word × Statement))
  | define (name : String) (body : Statement)
  deriving Inhabited, Repr

/-! ## Reading -/

/-- What is left of a script. -/
structure TokenSource where
  tokens : List Token
  documents : List HereDocument

/-- Readers of statements; `none` is a fault of syntax. -/
abbrev Reader := StateT TokenSource Option

namespace Reader

/-- The next token. -/
def next? : Reader (Option Token) := do
  pure (← get).tokens.head?

/-- Drops the next token. -/
def drop : Reader Unit :=
  modify fun s => { s with tokens := s.tokens.drop 1 }

/-- Drops line ends. -/
def skipLines : Reader Unit :=
  modify fun s =>
    { s with tokens := s.tokens.dropWhile fun | .lineEnd => true | _ => false }

/-- The next token as a plain word. -/
def plain? : Reader (Option String) := do
  match ← next? with
  | some (.word w) => pure w.plain?
  | _ => pure none

/-- Drops a plain word that has to come next. -/
def expect (s : String) : Reader Unit := do
  if (← plain?) = some s then drop else failure

/-- Drops an operator that has to come next. -/
def expectOperator (s : String) : Reader Unit := do
  match ← next? with
  | some (.operator t) => if s = t then drop else failure
  | _ => failure

/-- The next token as an operator. -/
def operator? : Reader (Option String) := do
  match ← next? with
  | some (.operator s) => pure (some s)
  | _ => pure none

/-- Drops an operator if it comes next, and says whether it did. -/
def skipOperator (s : String) : Reader Bool := do
  if (← operator?) = some s then
    drop
    pure true
  else
    pure false

/-- Words that end a list of statements. -/
def closingWords : List String :=
  ["then", "else", "elif", "fi", "do", "done", "esac", "\x7d"]

/-- Whether a list of statements ends here. -/
def isListEnd : Reader Bool := do
  match ← next? with
  | none => pure true
  | some (.operator s) => pure (s = ")" || s = ";;")
  | some (.word w) => pure (w.plain?.any (· ∈ closingWords))
  | _ => pure false

/-- The redirection that comes next. -/
def redirection? : Reader (Option Redirection) := do
  match ← next? with
  | some (.redirection channel s) =>
    drop
    let target ← match ← next? with
      | some (.word w) => do
        drop
        pure w
      | _ => failure
    if s = "<<" || s = "<<-" then
      match (← get).documents with
      | [] => failure
      | d :: ds =>
        modify fun s => { s with documents := ds }
        pure (some ⟨channel.getD 0, .document, d⟩)
    else
      pure (some (match s with
        | "<" | "<>" => ⟨channel.getD 0, .read, target⟩
        | "<&" => ⟨channel.getD 0, .copy, target⟩
        | ">&" => ⟨channel.getD 1, .copy, target⟩
        | ">>" => ⟨channel.getD 1, .append, target⟩
        | _ => ⟨channel.getD 1, .write, target⟩))
  | _ => pure none

/-- The redirections that come next. -/
def redirections : Nat → Reader (List Redirection)
  | 0 => pure []
  | fuel + 1 => do
    match ← redirection? with
    | none => pure []
    | some r => return r :: (← redirections fuel)

/-- A statement with the redirections behind it. -/
def redirect (fuel : Nat) (body : Statement) : Reader Statement := do
  match ← redirections fuel with
  | [] => pure body
  | rs => pure (.redirected body rs)

/-- A word as an assignment. -/
def assignment? : Word → Option (String × Word)
  | .text s :: rest =>
    match Text.cutAt? '=' s with
    | some (name, value) =>
      if isName name then some (name, if value.isEmpty then rest else .text value :: rest)
      else none
    | none => none
  | _ => none

/-- The words that come next. -/
def words : Nat → Reader (List Word)
  | 0 => failure
  | fuel + 1 => do
    match ← next? with
    | some (.word w) =>
      drop
      return w :: (← words fuel)
    | _ => pure []

/-- The patterns of a branch, up to the parenthesis behind them. -/
def patterns : Nat → Reader (List Word)
  | 0 => failure
  | fuel + 1 => do
    match ← next? with
    | some (.word w) =>
      drop
      if ← skipOperator "|" then return w :: (← patterns fuel)
      expectOperator ")"
      pure [w]
    | _ => failure

mutual

/-- A list of statements up to its end. -/
def list : Nat → Reader Statement
  | 0 => failure
  | fuel + 1 => do
    skipLines
    listFrom fuel (← andOr fuel)

/-- The rest of a list of statements behind its first. -/
def listFrom : Nat → Statement → Reader Statement
  | 0, _ => failure
  | fuel + 1, s => do
    match ← next? with
    | some (.operator ";") =>
      drop
      listMore fuel s
    | some (.operator "&") =>
      drop
      listMore fuel (.background s)
    | some .lineEnd => listMore fuel s
    | _ => pure s

/-- The statements behind the end of one. -/
def listMore : Nat → Statement → Reader Statement
  | 0, _ => failure
  | fuel + 1, s => do
    skipLines
    if ← isListEnd then pure s else return .sequence s (← list fuel)

/-- Pipelines joined by `&&` and `||`. -/
def andOr : Nat → Reader Statement
  | 0 => failure
  | fuel + 1 => do andOrFrom fuel (← pipeline fuel)

/-- The rest of joined pipelines behind the first. -/
def andOrFrom : Nat → Statement → Reader Statement
  | 0, _ => failure
  | fuel + 1, l => do
    if ← skipOperator "&&" then
      skipLines
      andOrFrom fuel (.both l (← pipeline fuel))
    else if ← skipOperator "||" then
      skipLines
      andOrFrom fuel (.either l (← pipeline fuel))
    else
      pure l

/-- A pipeline. -/
def pipeline : Nat → Reader Statement
  | 0 => failure
  | fuel + 1 => do
    if (← plain?) = some "!" then
      drop
      return .negate (← pipeline fuel)
    match ← stages fuel with
    | [s] => pure s
    | ss => pure (.pipeline ss)

/-- The stages of a pipeline. -/
def stages : Nat → Reader (List Statement)
  | 0 => failure
  | fuel + 1 => do
    let s ← command fuel
    if ← skipOperator "|" then
      skipLines
      return s :: (← stages fuel)
    else
      pure [s]

/-- A command, compound or simple. -/
def command : Nat → Reader Statement
  | 0 => failure
  | fuel + 1 => do
    if ← skipOperator "(" then
      let body ← list fuel
      expectOperator ")"
      return ← redirect fuel (.subshell body)
    match ← plain? with
    | some "\x7b" =>
      drop
      let body ← list fuel
      expect "\x7d"
      redirect fuel body
    | some "if" =>
      drop
      redirect fuel (← branch fuel)
    | some "while" =>
      drop
      redirect fuel (← loop fuel true)
    | some "until" =>
      drop
      redirect fuel (← loop fuel false)
    | some "for" =>
      drop
      redirect fuel (← forEach fuel)
    | some "case" =>
      drop
      redirect fuel (← choose fuel)
    | some s => if s ∈ closingWords || s = "in" then failure else simple fuel [] [] []
    | none => simple fuel [] [] []

/-- A branch behind its `if`, up to its `fi`. -/
def branch : Nat → Reader Statement
  | 0 => failure
  | fuel + 1 => do
    let test ← list fuel
    expect "then"
    let yes ← list fuel
    match ← plain? with
    | some "elif" =>
      drop
      return .branch test yes (← branch fuel)
    | some "else" =>
      drop
      let no ← list fuel
      expect "fi"
      pure (.branch test yes no)
    | _ =>
      expect "fi"
      pure (.branch test yes .nothing)

/-- A loop behind its first word. -/
def loop : Nat → Bool → Reader Statement
  | 0, _ => failure
  | fuel + 1, goal => do
    let test ← list fuel
    return .loop goal test (← body fuel)

/-- The statements between `do` and `done`. -/
def body : Nat → Reader Statement
  | 0 => failure
  | fuel + 1 => do
    expect "do"
    let s ← list fuel
    expect "done"
    pure s

/-- A loop over words behind its `for`. -/
def forEach : Nat → Reader Statement
  | 0 => failure
  | fuel + 1 => do
    match ← plain? with
    | none => failure
    | some name =>
      if !isName name then failure
      drop
      skipLines
      let values ← if (← plain?) = some "in" then do
          drop
          let ws ← words fuel
          if !(← skipOperator ";") then
            match ← next? with
            | some .lineEnd => pure ()
            | _ => failure
          pure (some ws)
        else do
          let _ ← skipOperator ";"
          pure none
      skipLines
      return .forEach name values (← body fuel)

/-- A choice behind its `case`. -/
def choose : Nat → Reader Statement
  | 0 => failure
  | fuel + 1 => do
    match ← next? with
    | some (.word w) =>
      drop
      skipLines
      expect "in"
      return .choose w (← branches fuel)
    | _ => failure

/-- The branches of a choice, up to its `esac`. -/
def branches : Nat → Reader (List (List Word × Statement))
  | 0 => failure
  | fuel + 1 => do
    skipLines
    if (← plain?) = some "esac" then
      drop
      return []
    let _ ← skipOperator "("
    let ps ← patterns fuel
    skipLines
    let body ← if ← isListEnd then pure .nothing else list fuel
    if ← skipOperator ";;" then
      return (ps, body) :: (← branches fuel)
    expect "esac"
    pure [(ps, body)]

/-- A simple command, or the definition of a function. -/
def simple : Nat → List (String × Word) → List Word → List Redirection → Reader Statement
  | 0, _, _, _ => failure
  | fuel + 1, assignments, ws, rs => do
    match ← redirection? with
    | some r => simple fuel assignments ws (rs ++ [r])
    | none =>
      match ← next? with
      | some (.word w) =>
        drop
        match ws.isEmpty, assignment? w with
        | true, some a => simple fuel (assignments ++ [a]) ws rs
        | _, _ => simple fuel assignments (ws ++ [w]) rs
      | some (.operator "(") =>
        match assignments, ws, rs with
        | [], [w], [] =>
          drop
          expectOperator ")"
          skipLines
          match w.plain? with
          | some name =>
            if !isName name then failure
            return .define name (← command fuel)
          | none => failure
        | _, _, _ => failure
      | _ =>
        if assignments.isEmpty && ws.isEmpty && rs.isEmpty then failure
        else pure (.simple assignments ws rs)

end

/-- The statements of a line behind the first. -/
def lineFrom : Nat → Statement → Reader Statement
  | 0, _ => failure
  | fuel + 1, s => do
    let after (s : Statement) : Reader Statement := do
      match ← next? with
      | none | some .lineEnd => pure s
      | _ => return .sequence s (← lineFrom fuel (← andOr fuel))
    match ← next? with
    | none | some .lineEnd => pure s
    | some (.operator ";") =>
      drop
      after s
    | some (.operator "&") =>
      drop
      after (.background s)
    | _ => failure

end Reader

/-- The next complete line of statements: `some none` at the end of the script, `none` on a
fault. -/
def readLine? (source : TokenSource) : Option (Option (Statement × TokenSource)) :=
  let fuel := 12 * source.tokens.length + 12
  let reader : Reader (Option Statement) := do
    Reader.skipLines
    match ← Reader.next? with
    | none => pure none
    | some _ => return some (← Reader.lineFrom fuel (← Reader.andOr fuel))
  match reader source with
  | none => none
  | some (none, _) => some none
  | some (some s, rest) => some (some (s, rest))

end NetworkCompiler.Shell
