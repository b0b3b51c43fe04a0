import ChipEight.Failure
import ChipEight.Log

/-!
# Standard error

Records that are important enough and the report of the failure that ends the program are written to
the same stream, each of them at once.  Besides the host the reader of the standard input writes its
records there.  Whose turn it is nobody decides, but neither changes the order of its own entries,
and what the reader has not written when the host is done is lost.
-/

namespace ChipEight.CommandLine

inductive Entry where
  | record (record : Record)
  | failure (failure : Failure)
  deriving DecidableEq, Repr

namespace Entry

def text : Entry → String
  | .record r => r.line
  | .failure f => f.report

def shownAt (threshold : Level) : Entry → Bool
  | .record r => r.shownAt threshold
  | .failure _ => true

def ofLog (log : Log) : List Entry :=
  log.toList.map record

end Entry

def stderrText (threshold : Level) (entries : List Entry) : String :=
  String.join ((entries.filter (·.shownAt threshold)).map Entry.text)

inductive Turn where
  | host
  | reader
  deriving DecidableEq, Repr

/-- The entries of both in the order of their turns.  A turn of the host that has no entry left is
the end of the program.  When no more turns are told, the host has all of them. -/
def weave : List Turn → List Entry → List Entry → List Entry
  | [], host, _ => host
  | .host :: _, [], _ => []
  | .host :: turns, entry :: host, reader => entry :: weave turns host reader
  | .reader :: turns, host, [] => weave turns host []
  | .reader :: turns, host, entry :: reader => entry :: weave turns host reader

end ChipEight.CommandLine
