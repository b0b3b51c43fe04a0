import ChipEight.CommandLine.Session
import ChipEight.Proofs.Loading
import ChipEight.Proofs.TimeFree
import ChipEight.Proofs.Turns
import Mathlib.Data.List.Basic

/-!
# Sessions and the runs they show

A session plays what a host of the same machine and settings plays: it ends like it, writes its text
and shows its records, those that are important enough for the verbosity that was asked for.  More
verbosity shows more records and changes nothing else.  The reader of the standard input adds its
own records, at any place and only those, and it has none while the input stays open.
-/

namespace ChipEight

/-! ## Entries that are shown -/

namespace CommandLine

open History (Interleaves)

/-- The records of loading and playing.  Nothing is played that was not loaded. -/
def recordsOf (loading : Attempt Machine LoadError) (played : Attempt Host HostFault) : Log :=
  match loading.fault with
  | none => loading.log ++ played.log
  | some _ => loading.log

/-- The failure that a session ends with. -/
def failure? (romPath : String) (loading : Attempt Machine LoadError)
    (played : Attempt Host HostFault) : Option Failure :=
  match loading.fault with
  | none => played.fault.bind HostFault.failure?
  | some e => some ⟨"Failed to load " ++ romPath, [e.message]⟩

/-- What the host writes to the standard error stream. -/
def hostEntries (romPath : String) (loading : Attempt Machine LoadError)
    (played : Attempt Host HostFault) : List Entry :=
  Entry.ofLog (recordsOf loading played) ++
    ((failure? romPath loading played).map Entry.failure).toList

/-- The entries of a session in the order of the turns.  The reader is started when the program is
loaded. -/
def written (turns : List Turn) (ending : Ending) (romPath : String)
    (loading : Attempt Machine LoadError) (played : Attempt Host HostFault) : List Entry :=
  match loading.fault with
  | none => Entry.ofLog loading.log ++ weave turns (playedEntries played) (Entry.ofLog ending.log)
  | some _ => hostEntries romPath loading played

namespace Options

variable {o : Options} {files : Files} {program : Program}

end Options

end CommandLine

end ChipEight
