import AddressRegistry.Config.Seeding
import AddressRegistry.Proofs.Store.Steps

/-!
# Seeding fills the gaps of a store

Seeding a store creates the objects of a configuration whose kinds and keys are free, and leaves everything
else alone. What it leaves behind is one equation, object by object: the object that was there, or else the
first seed of the kind with the name (`Store.get?_createMissing`, `Bootstrap.find?_objects`). Several seeds
with one name, and seeds that clash with objects that are there, need no case of their own.

The answer is the number of objects that are new (`Store.size_createMissing`), each of them was told about once
and nothing else was told (`Store.log_createMissing`). After a seeding no gap is left, so a second one creates
nothing (`Store.seed_fills_gaps`).

The run puts up with a key that is taken and ends at any other error, which would leave the objects created so
far. A creation meets no other error, so the run in place never ends early (`Store.createEachInPlace_eq`).
-/

namespace AddressRegistry

/-! ## The seeds of a configuration -/

/-- Metadata of an object that was stored and not touched since. -/
def Metadata.stored (space name : String) : Metadata := ⟨space, name, 1, [], false⟩

namespace Bootstrap

/-- The object that a configuration has for a kind and key: the first seed of the kind with the name, in the
namespace of the configuration. -/
def firstSeed? (b : Bootstrap) (id : ObjectId) : Option Object :=
  if id.key.space = b.space then
    match id.kind with
    | .tenant => (b.tenants.find? (·.name = id.key.name)).map fun seed =>
      .tenant ⟨.stored b.space seed.name, seed.spec, .fresh⟩
    | .scope => (b.scopes.find? (·.name = id.key.name)).map fun seed =>
      .scope ⟨.stored b.space seed.name, seed.spec, .fresh⟩
    | .pool => (b.pools.find? (·.name = id.key.name)).map fun seed =>
      .pool ⟨.stored b.space seed.name, seed.spec, .fresh⟩
    | .claim => (b.claims.find? (·.name = id.key.name)).map fun seed =>
      .claim ⟨.stored b.space seed.name, seed.spec, .fresh⟩
  else
    none

/-- Among the objects of seeds of one kind, the first one with a kind and key is the one of the first seed with
the name. -/
theorem find?_map_make {σ : Type} {space : String} (kind : Kind) {make : Seed σ → Object}
    (hmake : ∀ seed, (make seed).id = ⟨kind, ⟨space, seed.name⟩⟩) (seeds : List (Seed σ)) (id : ObjectId) :
    (seeds.map make).find? (·.id = id) =
      if id.kind = kind ∧ id.key.space = space then (seeds.find? (·.name = id.key.name)).map make
      else none := by
  rw [List.find?_map]
  split
  · rename_i h
    obtain ⟨rfl, rfl⟩ := h
    congr 2
    funext seed
    simp only [Function.comp_apply, hmake]
    obtain ⟨_, _, _⟩ := id
    simp
  · rename_i h
    rw [Option.map_eq_none_iff, List.find?_eq_none]
    intro seed _
    simp only [Function.comp_apply, hmake, decide_eq_true_eq]
    rintro rfl
    exact h ⟨rfl, rfl⟩

/-- The first object of a configuration with a kind and key, as a creation stores it. -/
theorem find?_objects (b : Bootstrap) (id : ObjectId) :
    (b.objects.find? (·.id = id)).map Store.created = b.firstSeed? id := by
  unfold objects firstSeed?
  rw [List.find?_append, List.find?_append, List.find?_append,
    find?_map_make .tenant fun _ => rfl, find?_map_make .scope fun _ => rfl,
    find?_map_make .pool fun _ => rfl, find?_map_make .claim fun _ => rfl]
  by_cases hspace : id.key.space = b.space
  · cases hkind : id.kind <;> simp [hspace] <;> rfl
  · simp [hspace]

end Bootstrap

namespace Store

variable {s : Store} {o : Object} {id : ObjectId}

/-! ## Creating what is missing -/

/-- A creation succeeds where nothing is stored. -/
theorem create_of_none (h : s.get? o.id = none) :
    s.create o = .ok (created o, s.write o.id (created o) .created) :=
  create_eq_ok_iff.2 ⟨h, rfl, rfl⟩

/-- A creation is refused where an object is stored, whatever it would have created. -/
theorem create_of_some {stored : Object} (h : s.get? o.id = some stored) :
    s.create o = .error (.conflict (.object o.id)) := by
  unfold create SortedMap.contains
  change (if (s.get? o.id).isSome then _ else _) = _
  rw [h]
  rfl

/-- An object whose place is free is created and counted, and the rest follows over the store that this
leaves. -/
theorem createMissing_of_none (h : s.get? o.id = none) (rest : List Object) :
    s.createMissing (o :: rest) =
      (((s.write o.id (created o) .created).createMissing rest).1 + 1,
        ((s.write o.id (created o) .created).createMissing rest).2) := by
  rw [createMissing, create_of_none h]

/-- An object whose place is taken is passed over. -/
theorem createMissing_of_some {stored : Object} (h : s.get? o.id = some stored) (rest : List Object) :
    s.createMissing (o :: rest) = s.createMissing rest := by
  rw [createMissing, create_of_some h]

/-- What was there stays, and a gap is filled by the first object with its kind and key. -/
theorem get?_createMissing (s : Store) (objects : List Object) (id : ObjectId) :
    (s.createMissing objects).2.get? id
      = (s.get? id).or ((objects.find? (·.id = id)).map created) := by
  induction objects generalizing s with
  | nil => exact Option.or_none.symm
  | cons o rest ih =>
    cases hget : s.get? o.id with
    | none =>
      rw [createMissing_of_none hget, ih]
      by_cases hid : o.id = id
      · subst hid
        rw [hget, List.find?_cons_of_pos (by simp)]
        show ((s.objects.insert o.id (created o)).get? o.id).or _ = _
        rw [SortedMap.get?_insert_self]
        rfl
      · rw [List.find?_cons_of_neg (by simpa using hid)]
        show ((s.objects.insert o.id (created o)).get? id).or _ = _
        rw [SortedMap.get?_insert_of_ne _ (Ne.symm hid)]
        rfl
    | some stored =>
      rw [createMissing_of_some hget, ih]
      by_cases hid : o.id = id
      · subst hid
        rw [hget, Option.some_or, Option.some_or]
      · rw [List.find?_cons_of_neg (by simpa using hid)]

/-- The answer is what the store grows by. -/
theorem size_createMissing (s : Store) (objects : List Object) :
    (s.createMissing objects).2.size = s.size + (s.createMissing objects).1 := by
  induction objects generalizing s with
  | nil => rfl
  | cons o rest ih =>
    cases hget : s.get? o.id with
    | none =>
      have hgrown : (s.write o.id (created o) .created).size = s.size + 1 :=
        SortedMap.size_insert_of_none hget _
      rw [createMissing_of_none hget, ih, hgrown, Nat.add_right_comm, Nat.add_assoc]
    | some stored => rw [createMissing_of_some hget, ih]

/-- Every gap that is filled is told about once, in the order in which gaps are filled. -/
theorem log_createMissing (s : Store) (objects : List Object) :
    ∃ ids : List ObjectId, ids.Nodup ∧ ids.length = (s.createMissing objects).1 ∧
      (∀ id, id ∈ ids ↔ s.get? id = none ∧ (objects.find? (·.id = id)).isSome) ∧
      (s.createMissing objects).2.log = (ids.map fun id => ⟨id, .created⟩).reverse ++ s.log := by
  induction objects generalizing s with
  | nil => exact ⟨[], .nil, rfl, by simp, rfl⟩
  | cons o rest ih =>
    cases hget : s.get? o.id with
    | none =>
      obtain ⟨ids, hnodup, hlength, hmem, hlog⟩ := ih (s.write o.id (created o) .created)
      have hfilled : ∀ id, (s.write o.id (created o) .created).get? id = none ↔
          id ≠ o.id ∧ s.get? id = none := by
        intro id
        show (s.objects.insert o.id (created o)).get? id = none ↔ _
        by_cases hid : id = o.id
        · rw [hid, SortedMap.get?_insert_self]
          simp
        · rw [SortedMap.get?_insert_of_ne _ hid]
          exact (and_iff_right hid).symm
      rw [createMissing_of_none hget]
      refine ⟨o.id :: ids, List.nodup_cons.2 ⟨fun hin => ?_, hnodup⟩, congrArg (· + 1) hlength,
        fun id => ?_, ?_⟩
      · exact ((hfilled _).1 ((hmem _).1 hin).1).1 rfl
      · rw [List.mem_cons, hmem, hfilled]
        by_cases hid : id = o.id
        · subst hid
          rw [List.find?_cons_of_pos (by simp)]
          simp [hget]
        · rw [List.find?_cons_of_neg (by simpa using Ne.symm hid)]
          simp [hid]
      · rw [hlog, List.map_cons, List.reverse_cons, List.append_assoc]
        rfl
    | some stored =>
      obtain ⟨ids, hnodup, hlength, hmem, hlog⟩ := ih s
      rw [createMissing_of_some hget]
      refine ⟨ids, hnodup, hlength, fun id => ?_, hlog⟩
      rw [hmem]
      refine and_congr_right fun hnone => ?_
      have hid : o.id ≠ id := by
        rintro rfl
        rw [hget] at hnone
        cases hnone
      rw [List.find?_cons_of_neg (by simpa using hid)]

/-- Where no object is missing, none is created and nothing is told. -/
theorem createMissing_of_present {objects : List Object} (h : ∀ o ∈ objects, (s.get? o.id).isSome) :
    s.createMissing objects = (0, s) := by
  induction objects with
  | nil => rfl
  | cons o rest ih =>
    obtain ⟨ho, hrest⟩ := List.forall_mem_cons.1 h
    obtain ⟨stored, hget⟩ := Option.isSome_iff_exists.1 ho
    rw [createMissing_of_some hget, ih hrest]

/-- No gap is left. -/
theorem createMissing_again (s : Store) (objects : List Object) :
    (s.createMissing objects).2.createMissing objects = (0, (s.createMissing objects).2) := by
  refine createMissing_of_present fun o ho => ?_
  rw [get?_createMissing, Option.isSome_or, Option.isSome_map, Bool.or_eq_true]
  refine Or.inr (List.find?_isSome.2 ⟨o, ho, ?_⟩)
  exact decide_eq_true rfl

/-! ## Seeding in place -/

/-- Create an object where the store stands, and count it. A key that is taken is put up with. -/
def createCountingInPlace (count : Nat) (o : Object) : EStateM RegistryError Store Nat :=
  tryCatch
    (do
      let _ ← createInPlace o
      return count + 1)
    fun e => if e.isConflict then return count else throw e

/-- Create one object after the other. An error that is not put up with ends the run, and what was created
stays. -/
def createEachInPlace (count : Nat) : List Object → EStateM RegistryError Store Nat
  | [] => return count
  | o :: rest => do
    let count ← createCountingInPlace count o
    createEachInPlace count rest

/-- Create the objects of a configuration where the store stands. -/
def seedInPlace (config : Config) : EStateM RegistryError Store Nat :=
  createEachInPlace 0 config.bootstrap.objects

/-- The step of the run in place creates an object whose place is free. -/
theorem createCountingInPlace_of_none (count : Nat) (h : s.get? o.id = none) :
    createCountingInPlace count o s = .ok (count + 1) (s.write o.id (created o) .created) := by
  have hcreate := createInPlace_comesTo s o
  unfold ComesTo at hcreate
  rw [create_of_none h] at hcreate
  show EStateM.tryCatch (EStateM.bind (createInPlace o) _) _ s = _
  unfold EStateM.tryCatch EStateM.bind
  dsimp only
  rw [hcreate]
  rfl

/-- The step of the run in place puts up with a conflict, and with no other error. -/
theorem createCountingInPlace_of_some (count : Nat) {stored : Object} (h : s.get? o.id = some stored) :
    createCountingInPlace count o s = .ok count s := by
  have hcreate := createInPlace_comesTo s o
  unfold ComesTo at hcreate
  rw [create_of_some h] at hcreate
  show EStateM.tryCatch (EStateM.bind (createInPlace o) _) _ s = _
  unfold EStateM.tryCatch EStateM.bind
  dsimp only
  rw [hcreate]
  rfl

/-- The run never ends early. -/
theorem createEachInPlace_eq (s : Store) (count : Nat) (objects : List Object) :
    createEachInPlace count objects s =
      .ok (count + (s.createMissing objects).1) (s.createMissing objects).2 := by
  induction objects generalizing s count with
  | nil => rfl
  | cons o rest ih =>
    show EStateM.bind (createCountingInPlace count o) (createEachInPlace · rest) s = _
    unfold EStateM.bind
    cases hget : s.get? o.id with
    | none =>
      rw [createCountingInPlace_of_none count hget, createMissing_of_none hget]
      refine (ih (s.write o.id (created o) .created) (count + 1)).trans ?_
      rw [Nat.add_right_comm, Nat.add_assoc]
    | some stored =>
      rw [createCountingInPlace_of_some count hget, createMissing_of_some hget]
      exact ih s count

/-- **Seeding fills the gaps of a store and does nothing else.** Whatever the store holds and whatever the
configuration says, names that occur twice included, the answer is the number of objects by which the store
grows. An object that was there is there as it was. A kind and key that was free holds the first seed of the
kind with the name, in the namespace of the configuration, and nothing when there is no such seed; each of
these objects is told about once, and nothing else is told. A second seeding answers zero, changes nothing and
tells nothing. Made in place, where it could end early, a seeding comes to the same. -/
theorem seed_fills_gaps (s : Store) (config : Config) :
    let n := (s.seed config).1
    let s' := (s.seed config).2
    seedInPlace config s = .ok n s' ∧
      s'.size = s.size + n ∧
      (∀ id o, s.get? id = some o → s'.get? id = some o) ∧
      (∀ id, s.get? id = none → s'.get? id = config.bootstrap.firstSeed? id) ∧
      (∃ ids : List ObjectId, ids.Nodup ∧ ids.length = n ∧
        (∀ id, id ∈ ids ↔ s.get? id = none ∧ (config.bootstrap.firstSeed? id).isSome) ∧
        s'.log = (ids.map fun id => ⟨id, .created⟩).reverse ++ s.log) ∧
      s'.seed config = (0, s') ∧ seedInPlace config s' = .ok 0 s' := by
  intro n s'
  have hagain : s'.seed config = (0, s') := s.createMissing_again config.bootstrap.objects
  have hinPlace : ∀ s : Store, seedInPlace config s = .ok (s.seed config).1 (s.seed config).2 := by
    intro s
    refine (createEachInPlace_eq s 0 config.bootstrap.objects).trans ?_
    rw [Nat.zero_add]
    rfl
  have hget : ∀ id, s'.get? id = (s.get? id).or (config.bootstrap.firstSeed? id) := by
    intro id
    rw [← Bootstrap.find?_objects]
    exact s.get?_createMissing config.bootstrap.objects id
  refine ⟨hinPlace s, s.size_createMissing config.bootstrap.objects, fun id o ho => ?_, fun id hnone => ?_, ?_,
    hagain, ?_⟩
  · rw [hget, ho, Option.some_or]
  · rw [hget, hnone, Option.none_or]
  · obtain ⟨ids, hnodup, hlength, hmem, hlog⟩ := s.log_createMissing config.bootstrap.objects
    refine ⟨ids, hnodup, hlength, fun id => ?_, hlog⟩
    rw [hmem, ← Bootstrap.find?_objects, Option.isSome_map]
  · rw [hinPlace, hagain]

end Store

namespace Sample

/-- A disabled tenant of long standing, about to be deleted. -/
def resident : Object := .tenant ⟨⟨"default", "acme", 7, ["audit"], true⟩, ⟨.disable, none⟩, .fresh⟩

/-- The store that holds it. -/
def tenanted : Store := Store.empty.write resident.id resident .created

/-- A configuration with a tenant of the same name, two tenants of another name and a scope. -/
def rivals : Config :=
  { Config.standard with
    bootstrap := ⟨"default", [⟨"acme", .fresh⟩, ⟨"beta", ⟨.disable, none⟩⟩, ⟨"beta", .fresh⟩],
      [⟨"acme.core", .fresh⟩], [], []⟩ }

end Sample

/-- Of the rivals for one name the first is created; the resident of the other name stays as it is. -/
theorem Store.seed_fills_gaps_rivals :
    Sample.tenanted.get? ⟨.tenant, ⟨"default", "acme"⟩⟩ = some Sample.resident ∧
      Sample.tenanted.get? ⟨.tenant, ⟨"default", "beta"⟩⟩ = none ∧
      (Sample.tenanted.seed Sample.rivals).1 = 2 ∧
      (Sample.tenanted.seed Sample.rivals).2.get? ⟨.tenant, ⟨"default", "acme"⟩⟩ = some Sample.resident ∧
      (Sample.tenanted.seed Sample.rivals).2.get? ⟨.tenant, ⟨"default", "beta"⟩⟩
        = some (.tenant ⟨.stored "default" "beta", ⟨.disable, none⟩, .fresh⟩) := by
  obtain ⟨-, -, hkept, hfilled, -⟩ := seed_fills_gaps Sample.tenanted Sample.rivals
  have hacme : Sample.tenanted.get? ⟨.tenant, ⟨"default", "acme"⟩⟩ = some Sample.resident := by
    decide +kernel
  have hbeta : Sample.tenanted.get? ⟨.tenant, ⟨"default", "beta"⟩⟩ = none := by decide +kernel
  refine ⟨hacme, hbeta, by decide +kernel, hkept _ _ hacme, (hfilled _ hbeta).trans ?_⟩
  decide +kernel

end AddressRegistry
