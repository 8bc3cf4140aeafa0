import AddressRegistry.Config.Basic
import AddressRegistry.Store.Basic

/-!
# Seeding a store

When a registry starts, the objects of its configuration are created, those excepted whose kind and
key are taken.
-/

namespace AddressRegistry

namespace Store

/-- Create the objects whose kinds and keys are free, in their order; the answer is their number. A
key that is taken is the only reason for which a creation fails. -/
def createMissing (s : Store) : List Object → Nat × Store
  | [] => (0, s)
  | object :: rest =>
    match s.create object with
    | .ok (_, s) =>
      let (n, s) := createMissing s rest
      (n + 1, s)
    | .error _ => createMissing s rest

/-- Create the objects of a configuration. -/
def seed (s : Store) (config : Config) : Nat × Store :=
  s.createMissing config.bootstrap.objects

end Store

end AddressRegistry
