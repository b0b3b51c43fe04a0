import ChipEight.CommandLine.Options
import ChipEight.CommandLine.Stderr
import ChipEight.CommandLine.Stdin

/-!
# Sessions

A session is the program from its arguments to its exit code.  It is a function of the files it can
read, the random bytes, the arguments, the standard input and the turns in which its two parties
write to the standard error stream; what it writes is part of its result.

The arguments are read by a parser, which may end the session itself, as for a request for help.
-/

namespace ChipEight.CommandLine

inductive ReadError where
  | notFound
  | isDirectory
  | other (text : String)
  deriving DecidableEq, Repr

def ReadError.message : ReadError → String
  | .notFound => "No such file or directory (os error 2)"
  | .isDirectory => "Is a directory (os error 21)"
  | .other text => text

abbrev Files := String → Except ReadError Program

def readRom (files : Files) (path : String) : Except Failure Program :=
  (files path).mapError fun e => ⟨"Failed to read ROM from " ++ path, [e.message]⟩

structure Report where
  code : Nat
  stdout : String
  stderr : String
  deriving DecidableEq, Repr

/-- A parser finds the options or reports why there are none. -/
abbrev Parser := List String → Except Report Options

namespace Options

def boot (o : Options) (files : Files) (random : List UInt8) : Except Failure (Console × Log) := do
  let program ← readRom files o.romPath
  let loading := (Console.new o.dialect o.timerMode random).load program
  match loading.fault with
  | none => return (loading.state, loading.log)
  | some e => throw ⟨"Failed to load " ++ o.romPath, [e.message]⟩

def play (o : Options) (console : Console) : Attempt Host HostFault :=
  (Host.new console o.settings (.new none) 0).run

end Options

/-- The code that the program exits with after its run.  It does not exit while the run goes on. -/
def exitCode? : Option HostFault → Option Nat
  | none => some 0
  | some fault => fault.failure?.map fun _ => 1

/-- What the host writes to the standard error stream from its first tick on. -/
def playedEntries (played : Attempt Host HostFault) : List Entry :=
  Entry.ofLog played.log ++ ((played.fault.bind HostFault.failure?).map Entry.failure).toList

/-- The session that the arguments ask for, if it ends.  What the user typed is carried out before
the first tick; that there is no more input is reported at any time after that. -/
def session (parse : Parser) (files : Files) (random : List UInt8) (arguments : List String)
    (stdin : Stdin) (turns : List Turn) : Option Report :=
  match parse arguments with
  | .error report => some report
  | .ok o =>
      match o.boot files random with
      | .error failure => some ⟨1, "", failure.report⟩
      | .ok (console, loading) =>
          let (ready, typing) := typeLines console stdin.lines
          let played := o.play ready
          let entries := Entry.ofLog (loading ++ typing) ++
            weave turns (playedEntries played) (Entry.ofLog stdin.ending.log)
          (exitCode? played.fault).map fun code =>
            ⟨code, played.state.output.text, stderrText o.threshold entries⟩

end ChipEight.CommandLine
