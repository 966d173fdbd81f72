import RingMachine.Cli.Run

/-!
The command line as a program: it reads the files its arguments name and standard input,
takes the tracer's period from the environment, runs, and writes both output streams. A
failure that ends the run outright is written to standard error with exit code 1.
-/

open RingMachine

/-- The bytes of a file, if it can be read. -/
def readFile? (path : String) : IO (Option (List UInt8)) := do
  try
    let bytes ← IO.FS.readBinFile path
    return some bytes.toList
  catch _ =>
    return none

partial def readAll (stream : IO.FS.Stream) (acc : ByteArray) : IO ByteArray := do
  let chunk ← stream.read 65536
  if chunk.isEmpty then return acc else readAll stream (acc ++ chunk)

def tracerPath : String := "ext/tracer.py"

def main (args : List String) : IO UInt32 := do
  let mut files : List (List String × List UInt8) := []
  for path in tracerPath :: args do
    if let some bytes ← readFile? path then
      files := files ++ [(Cli.Directory.partsOf path, bytes)]
  let stdin ← readAll (← IO.getStdin) ByteArray.empty
  let traceEvery ← IO.getEnv "DIS_TRACE_EVERY"
  let tracerParts := Cli.Directory.partsOf tracerPath
  let env : Cli.Environment := {
    directory := ⟨files⟩
    tracer := if files.any (·.1 = tracerParts) then some tracerParts else none
    -- This program cannot run the code of other extension modules, so each reads as a module
    -- with no `dis_register`.
    modules := fun _ => {}
    stdin := stdin.toList
    traceEvery
    -- Memories beyond a tebibyte are taken to be refused.
    allocates := fun bytes => bytes ≤ Nat.pow 2 40 }
  let err ← IO.getStderr
  match Cli.run args env with
  | none =>
    -- Only a machine that runs forever has no result, and computing it never ends: this
    -- branch is never reached.
    return 3
  | some (.error c) =>
    err.putStr (c.kind ++ ": " ++ c.message ++ "\n")
    err.flush
    return 1
  | some (.ok r) =>
    let out ← IO.getStdout
    out.write (ByteArray.mk r.stdout.toArray)
    out.flush
    err.putStr r.stderr
    err.flush
    return r.exitCode.toUInt32
