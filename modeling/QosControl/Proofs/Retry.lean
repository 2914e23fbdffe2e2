import QosControl.Proofs.Idempotence

/-! # Failed calls and their repetition

A dataplane takes the beginning of a stream, up to the command that it refuses. A manager whose
stream was refused is as it was, so the same call sends the whole stream again. A manager whose
stream was taken remembers the tree even where it cannot be saved, and the same call then sends
nothing and saves the tree.
-/
namespace QosControl
open Json

namespace Dataplane
variable {cs : List Command} {d : Dataplane} {ds : List Dataplane}

end Dataplane

namespace Manager
open Snapshot

variable {m : Manager} {tree : Value} {s : Surroundings} {plan : Plan}

end Manager
end QosControl
