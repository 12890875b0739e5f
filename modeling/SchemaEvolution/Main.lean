import SchemaEvolution.CommandLine.Run

/-!
# The program

Runs the command line. What a command prints goes to standard output; questions, closing messages
and failures go to standard error. The exit code is 1 after a failure and 2 if the command line
is malformed.
-/

namespace SchemaEvolution.CommandLine

/-- The result of an action, or its failure in words. -/
def attempt {α : Type} (action : IO α) : IO (Except String α) := do
  match ← action.toBaseIO with
  | .ok a => return .ok a
  | .error e => return .error (toString e)

def isThere (path : String) : IO Bool := do
  match ← (IO.FS.withFile path .read fun _ => pure ()).toBaseIO with
  | .error (.noFileOrDirectory ..) => return false
  | _ => return true

/-- Reads lines until one is an answer. -/
partial def readAnswer (input : IO.FS.Stream) (most : Nat) : IO (Except String Nat) := do
  IO.eprint ("choice [0-" ++ toString most ++ "]: ")
  let line ← input.getLine
  if line = "" then return .error Prompt.inputClosed
  match Prompt.answer? most line with
  | some n => return .ok n
  | none =>
    IO.eprintln ("  expected a number between 0 and " ++ toString most)
    readAnswer input most

/-- Sixteen bytes as a random identifier: the version and the variant are marked in them. -/
def identifierText (bytes : List UInt8) : String :=
  let marked := bytes.zipIdx.map fun (b, i) =>
    if i = 6 then b.toNat % 16 + 64 else if i = 8 then b.toNat % 64 + 128 else b.toNat
  let group (start length : Nat) : String :=
    String.ofList (((marked.drop start).take length).flatMap fun n =>
      [Nat.digitChar (n / 16), Nat.digitChar (n % 16)])
  "-".intercalate [group 0 4, group 4 2, group 6 2, group 8 2, group 10 6]

/-- The files, streams and chance of the system. -/
def system : World IO where
  exists? := isThere
  read path := attempt (IO.FS.readFile path)
  write path text := attempt (IO.FS.writeFile path text)
  print text := IO.println text
  ask q := do
    q.lines.forM IO.eprintln
    readAnswer (← IO.getStdin) q.deleted.length
  freshId := do return identifierText (← IO.getRandomBytes 16).toList

/-- Tells a failure and what is behind it. -/
def tell (f : Failure) : IO Unit := do
  IO.eprintln ("Error: " ++ f.message)
  match f.cause? with
  | some cause => IO.eprintln ("\nCaused by:\n    " ++ cause)
  | none => pure ()

end SchemaEvolution.CommandLine

open SchemaEvolution.CommandLine in
def main (args : List String) : IO UInt32 := do
  let env : Environment :=
    { mode := ← IO.getEnv Environment.modeVariable
      breakpoints := ← IO.getEnv Environment.breakpointsVariable }
  match Invocation.ofArguments? env args with
  | none =>
    IO.eprintln "usage: [-c FILE] [-v] diff|check|snapshot ..."
    return 2
  | some i =>
    match ← (run system i).run with
    | .ok message =>
      message.forM IO.eprintln
      return 0
    | .error f =>
      tell f
      return 1
