/-!
# Reports of failures

A failure that ends the program says what the program was doing, or what went wrong if there is no
more to say, and then the chain of causes behind it, each the cause of the one before.
-/

namespace ChipEight

structure Failure where
  text : String
  causes : List String
  deriving DecidableEq, Repr

namespace Failure

/-- The lines of the causes.  A cause that stands alone is not numbered. -/
def causeLines : List String → String
  | [] => ""
  | [cause] => s!"\n\nCaused by:\n    {cause}"
  | causes =>
      "\n\nCaused by:" ++
        String.join (causes.zipIdx.map fun (cause, place) => s!"\n    {place}: {cause}")

def report (f : Failure) : String :=
  "Error: " ++ f.text ++ causeLines f.causes ++ "\n"

end Failure

end ChipEight
