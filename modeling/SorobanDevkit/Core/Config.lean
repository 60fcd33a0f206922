import SorobanDevkit.Library.UnorderedMap

/-!
# The project configuration

The sections of `.sdkt.toml` that name contracts and packages, as `sdkt-core/src/config.rs` declares
them: the contracts of the workspace with the contracts they are deployed after, the metadata of the
package, and the packages it depends on.

## Main definitions

* `ContractConfig`, `PackageConfig`, `Dependency`, `DevKitConfig`.
-/

namespace SorobanDevkit.Core

/-- `ContractConfig`: the settings of one contract. -/
structure ContractConfig where
  path : String
  deployAfter : List String
  dependsOn : List String
  ctorArgs : List String
  deriving DecidableEq

/-- `PackageConfig`: the metadata of a package. -/
structure PackageConfig where
  name : Option String
  version : Option String
  description : Option String
  deriving DecidableEq

/-- `Dependency`: a package dependency, on a local path or a git repository. -/
structure Dependency where
  path : Option String
  git : Option String
  tag : Option String
  branch : Option String
  rev : Option String
  version : Option String
  deriving DecidableEq

/-- `Dependency::default()`. -/
def Dependency.default : Dependency where
  path := none
  git := none
  tag := none
  branch := none
  rev := none
  version := none

/-- `DevKitConfig`. The contracts and the dependencies are hash maps. -/
structure DevKitConfig where
  contracts : UnorderedMap String ContractConfig
  package : Option PackageConfig
  dependencies : UnorderedMap String Dependency

end SorobanDevkit.Core
