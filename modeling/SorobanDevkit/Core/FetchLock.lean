import SorobanDevkit.Core.FetchAll

/-!
# When a lock that was just written is verified

After `sdkt package fetch` the checker of the lock should find nothing. The fetch records what git
reads of the full name of a tag or of a remote-tracking branch, or a declared revision as it is
written, and the checker compares it with `HEAD`, which the last fetch into a directory leaves at
the commit that its reference stands for. A version constraint is fetched into the directory of a
tag, and the checker looks into the directory of a dependency without a reference.
-/

namespace SorobanDevkit.Core

section Agreement

variable {env : Env} {base : String} {config : DevKitConfig} {force : Bool} {cache cache' : Cache}
  {outcomes : List FetchOutcome} {name : String} {dep : Dependency}

end Agreement

section Library

end Library

end SorobanDevkit.Core
