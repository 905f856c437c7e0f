import BuildAlignment.Alignment.Request
import BuildAlignment.Rule

/-!
# Exclusions

Before an authority is asked, exclusions take dependencies out of the request.

* `Exclusion.covers` decides what an exclusion speaks about.
* `Exclusion.apply` takes that out, module by module.
-/

namespace BuildAlignment

structure Exclusion where
  rules : List Rule

namespace Exclusion

def order (_ : Exclusion) : Int := 0

def covers (exclusion : Exclusion) (declared owner : Coordinate) : Bool :=
  exclusion.rules.any fun rule => rule.covers declared owner

def apply (exclusion : Exclusion) (request : Request) : Request :=
  { request with
    modules := request.modules.map fun entry =>
      { entry with
        dependencies := entry.dependencies.filter fun dependency =>
          !exclusion.covers dependency.declared entry.owner } }

end Exclusion

end BuildAlignment
