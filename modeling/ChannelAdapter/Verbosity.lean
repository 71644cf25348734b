/-!
How much is logged.
-/

namespace ChannelAdapter

inductive Verbosity
  | normal
  | verbose
  deriving DecidableEq, Repr

namespace Verbosity

def ofFlag (verbose : Bool) : Verbosity :=
  if verbose then .verbose else .normal

def level : Verbosity → String
  | normal => "info"
  | verbose => "debug"

end Verbosity

end ChannelAdapter
