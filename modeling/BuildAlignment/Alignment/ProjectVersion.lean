import BuildAlignment.Version.Kind
import BuildAlignment.Version.Suffix

/-!
# The new version of a build

* `ProjectVersionSettings` says how the version of a build is changed.
* `ProjectVersionSettings.compute?` computes the new version from the one the authority gives or
  the declared one.
-/

namespace BuildAlignment

structure ProjectVersionSettings where
  enabled : Bool := true
  suffix : String := Version.defaultSuffix
  padding : Nat := Version.defaultPadding
  preserveSnapshot : Bool := false
  versionOverride : Option String := none
  previousVersion : Option String := none
  deriving DecidableEq, Repr

namespace ProjectVersionSettings

/-- The counting version after a release and a previous version, with the snapshot marker put back
where it is to be kept. -/
def countOn? (settings : ProjectVersionSettings) (input release : String)
    (candidates : List String) : Option String :=
  (Version.nextVersion? release candidates settings.suffix settings.padding).map fun next =>
    if settings.preserveSnapshot && release != input then next ++ "-SNAPSHOT" else next

/-- The new version. A disabled change keeps the declared version, a fixed version wins over
counting, and counting starts from the authority's version where there is one. There is no answer
when a snapshot marker would have to be cut inside a character, or when the counter would have to be
filled up too far. -/
def compute? (settings : ProjectVersionSettings) (authority : Option String) (declared : String) :
    Option String :=
  if !settings.enabled then some declared
  else match settings.versionOverride with
    | some version => some version
    | none =>
      let input := authority.getD declared
      match Version.stripSnapshot? input, settings.previousVersion.map Version.stripSnapshot? with
      | some release, none => settings.countOn? input release []
      | some release, some (some previous) => settings.countOn? input release [previous]
      | _, _ => none

end ProjectVersionSettings

end BuildAlignment
