import ChipEight.CommandLine.Session

/-!
# The program

Runs a session against the world: the file system, the terminal, the clock and random bytes.  What
happens in a tick is decided by the host; this loop only moves lines, bytes and time in and text
out.  The parser of the arguments is the caller's.
-/

namespace ChipEight.CommandLine

def readProgram (path : String) : IO (Except ReadError Program) := do
  try
    let bytes ← IO.FS.readBinFile path
    return .ok bytes.data
  catch
    | .noFileOrDirectory .. => return .error .notFound
    | .inappropriateType .. => return .error .isDirectory
    | e => return .error (.other (toString e))

def showLog (o : Options) (log : Log) : IO Unit := do
  IO.eprint (stderrText o.threshold (Entry.ofLog log))

/-! ## Key input -/

/-- The lines that were read and not yet carried out, and what came after them. -/
structure Heard where
  lines : Array (List Char)
  ending : Ending

def Heard.nothing : Heard :=
  ⟨#[], .waiting⟩

/-- Reads on to the end of the line or of the input. -/
partial def readBytes (stream : IO.FS.Stream) (bytes : ByteArray) : IO ByteArray := do
  let next ← stream.read 1
  if next.isEmpty || next.data.contains 0x0A then return bytes ++ next
  readBytes stream (bytes ++ next)

def readLine : IO (Except Ending (List Char)) := do
  try
    let bytes ← readBytes (← IO.getStdin) .empty
    if bytes.isEmpty then return .error .closed
    match String.fromUTF8? bytes with
    | some line => return .ok line.toList
    | none => return .error (.failed "stream did not contain valid UTF-8")
  catch e =>
    return .error (.failed (toString e))

partial def listen (heard : IO.Ref Heard) : IO Unit := do
  match ← readLine with
  | .ok line =>
      heard.modify fun h => { h with lines := h.lines.push line }
      listen heard
  | .error ending => heard.modify fun h => { h with ending }

def takeLines (o : Options) (heard : IO.Ref Heard) (h : Host) : IO Host := do
  let found ← heard.modifyGet fun found => (found, .nothing)
  let (console, log) := typeLines h.console found.lines.toList
  showLog o (log ++ found.ending.log)
  return { h with console }

/-! ## Ticks -/

def maxPiece : Nat := 65536

/-- The steps of a tick in pieces of a moderate length. -/
def pieces (steps : Nat) : List Nat :=
  List.replicate (steps / maxPiece) maxPiece ++ [steps % maxPiece]

theorem foldl_pieces (steps : Nat) : (pieces steps).foldl (· + ·) 0 = steps := by
  have hwhole : ∀ n, (List.replicate n maxPiece).foldl (· + ·) 0 = n * maxPiece := by
    intro n
    induction n with
    | zero => rw [Nat.zero_mul]; rfl
    | succ n ih =>
        rw [List.replicate_succ', List.foldl_append, ih, Nat.succ_mul]
        rfl
  unfold pieces
  rw [List.foldl_append, hwhole]
  exact Nat.div_add_mod' steps maxPiece

/-- Gives the machine fresh random bytes, none if the system has none to give. -/
def renewRandom (h : Host) (count : Nat) : IO Host := do
  let random ← try
      let bytes ← IO.getRandomBytes (USize.ofNat count)
      pure bytes.data.toList
    catch _ => pure []
  let machine := { h.console.machine with random }
  return { h with console := { h.console with machine } }

/-- The steps of a tick, with a fresh random byte for each of them. -/
def playBatch (h : Host) : IO (Attempt Host HostFault) :=
  (pieces h.settings.stepsPerTick).foldlM
    (fun a steps => do
      let ready ← renewRandom a.state steps
      return { a with state := ready }.andThen (·.batchOf steps))
    (.done h #[])

def catchUp (origin : Nat) (h : Host) : IO Host := do
  let now := (← IO.monoNanosNow) - origin
  return h.advance (now - h.console.now)

/-- Sleeps for whole milliseconds, no more of them at once than can be told, and awaits what is left
of the last one. -/
partial def sleepUntil (deadline : Nat) : IO Unit := do
  let now ← IO.monoNanosNow
  if now < deadline then
    IO.sleep (UInt32.ofNat (min ((deadline - now) / 1000000) 4294967295))
    sleepUntil deadline

partial def loop (o : Options) (heard : IO.Ref Heard) (origin ticks : Nat) (h : Host) :
    IO UInt32 := do
  if o.maxTicks == some ticks then
    showLog o #[Host.endRecord ticks]
    return 0
  let ready ← takeLines o heard (← catchUp origin h)
  let batch ← playBatch { ready with output := .new none }
  let done := ((batch.andThen Host.countDown).andThen Host.present).andThen Host.ring
  showLog o done.log
  IO.print done.state.output.text
  (← IO.getStdout).flush
  match done.fault with
  | some fault =>
      IO.eprint ((fault.failure?.map Failure.report).getD "")
      return 1
  | none =>
      sleepUntil (origin + ready.console.now + o.settings.tickTime)
      loop o heard origin (ticks + 1) done.state

def runProgram (parse : Parser) (arguments : List String) : IO UInt32 := do
  match parse arguments with
  | .error report =>
      IO.print report.stdout
      IO.eprint report.stderr
      return UInt32.ofNat report.code
  | .ok o =>
      let file ← readProgram o.romPath
      match o.boot (fun _ => file) [] with
      | .error failure =>
          IO.eprint failure.report
          return 1
      | .ok (console, log) =>
          showLog o log
          let heard ← IO.mkRef Heard.nothing
          let _ ← IO.asTask (listen heard) .dedicated
          loop o heard (← IO.monoNanosNow) 0 (Host.new console o.settings (.new none) 0)

end ChipEight.CommandLine
