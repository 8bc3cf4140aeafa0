import AddressRegistry.Proofs.Allocation.Ledger

/-!
# Where dynamic blocks come from

A dynamic registration carves its block out of any wider route that its selector matches, whoever inserted
that route. A provenance follows a run of operations on one scope, with the default lengths as they are at
each of them, and notes who inserted which network. A claim with a wider network and matching labels is then
a pool for other claims (`block_carved_from_claim`), and so is a claim from before a default length was
raised.

When no registration asks for a longer block than claims with its purpose and family have taken before
(`Operation.Cedes`), each new block lies in a network that was declared, of the family asked for
(`dynamic_block_from_declared`). What a run keeps is `Provenance.Traced`. The search passes over the routes
around a pool, so the block still lies in every claim's network that is around the pool; there is none when
no network is declared in one that a claim has, or claimed around a declared one (`Provenance.Shelters`).
-/

namespace AddressRegistry

/-! ## Operations and what they insert -/

/-- Who inserted a route. -/
inductive Origin where
  | declared
  | claimed
deriving DecidableEq

/-- An operation on a scope, with the store as it is when the operation is made. -/
inductive Operation where
  | declare (pool : Pool)
  | retract (network : String)
  | register (access : Access) (r : Registration)
  | deregister (access : Access) (r : Registration)

/-- The indexes during a run of operations on one scope. -/
structure Provenance where
  indexes : ScopeIndexes
  /-- Who inserted the route of a network last. -/
  origins : SortedMap Network Origin

namespace Provenance

/-- The scope has an index without routes. -/
def start (indexes : ScopeIndexes) (key : ObjectKey) : Provenance :=
  ⟨indexes.insert key .empty, .empty⟩

/-- Note what an operation answers that inserts a network unless it is there. -/
def note (s : Provenance) (key : ObjectKey) (origin : Origin) :
    Option (Network × ScopeIndexes) → Provenance
  | some (n, changed) =>
    ⟨changed, if s.indexes.hasRoute key n then s.origins else s.origins.insert n origin⟩
  | none => s

/-- An operation. One that fails changes nothing. -/
def step (key : ObjectKey) (s : Provenance) : Operation → Provenance
  | .declare pool => s.note key .declared (s.indexes.declare key pool).2.toOption
  | .retract raw => { s with indexes := (s.indexes.retract key raw).toOption.getD s.indexes }
  | .register access r => s.note key .claimed (s.indexes.register access r).toOption
  | .deregister access r => { s with indexes := (s.indexes.deregister access r).toOption.getD s.indexes }

/-- One operation after the other. -/
def run (key : ObjectKey) (s : Provenance) (ops : List Operation) : Provenance :=
  ops.foldl (step key) s

/-- The networks of the scope's routes that have an origin. -/
def networksFrom (s : Provenance) (key : ObjectKey) (origin : Origin) : List Network :=
  match s.indexes.get? key with
  | some index => index.networks.filter fun n => s.origins.get? n == some origin
  | none => []

/-- The networks of routes that a declaration inserted. -/
def declared (s : Provenance) (key : ObjectKey) : List Network := s.networksFrom key .declared

/-- The networks of routes that a registration inserted. -/
def claimed (s : Provenance) (key : ObjectKey) : List Network := s.networksFrom key .claimed

end Provenance

/-! ## What registrations ask for and take -/

/-- Purpose, family and length of a network. -/
structure Extent where
  purpose : String
  family : Family
  length : Nat
deriving DecidableEq

namespace Registration

variable {r : Registration} {access : Access} {scope : Scope} {purpose : String} {family : Family}
variable {length : Nat}

/-- What the selector of a dynamic registration asks for, with the length that the scope gives. -/
def asked? (r : Registration) (access : Access) : Option Extent := do
  let purpose ← r.purpose.toOption
  let family ← r.family.toOption
  let scope ← (access.fetchScope r.scopeKey).toOption.join
  let length ← scope.spec.lengthFor purpose family
  return ⟨purpose, family, length⟩

/-- The length of the network that a registration gets. -/
def length? (r : Registration) (access : Access) : Option Nat :=
  match r.network with
  | some raw => (Network.parse raw).toOption.map (·.length)
  | none => (r.asked? access).map (·.length)

/-- What a registration takes, as the labels of its route show it. -/
def taken? (r : Registration) (access : Access) : Option Extent := do
  let purpose ← r.combined.get? Labels.purposeKey
  let family ← (r.combined.get? Labels.familyKey).bind Family.ofLabel?
  let length ← r.length? access
  return ⟨purpose, family, length⟩

/-- A registration that asks for a length in its scope asks for what its selector says. -/
theorem asked?_of_asks (hfetch : access.fetchScope r.scopeKey = .ok (some scope))
    (hasks : r.Asks scope.spec length) :
    ∃ a, r.asked? access = some a ∧ a.length = length ∧
      r.selector.get? Labels.purposeKey = some a.purpose ∧
        r.selector.get? Labels.familyKey = some a.family.label := by
  obtain ⟨purpose, family, hpurpose, hfamily, hlength⟩ := hasks
  refine ⟨⟨purpose, family, length⟩, ?_, rfl, hpurpose, hfamily⟩
  unfold asked?
  rw [purpose_eq_ok_iff.2 hpurpose, family_eq_ok_iff.2 hfamily, hfetch]
  show (scope.spec.lengthFor purpose family >>= _) = _
  rw [hlength]
  rfl

/-- A registration takes what its labels say, in the length that it gets. -/
theorem taken?_of_labels (hpurpose : r.combined.requirements.get? Labels.purposeKey = some purpose)
    (hfamily : r.combined.requirements.get? Labels.familyKey = some family.label)
    (hlength : r.length? access = some length) :
    r.taken? access = some ⟨purpose, family, length⟩ := by
  unfold taken? Selector.get?
  rw [hpurpose, hfamily, hlength]
  show ((Family.ofLabel? family.label).bind _) = _
  rw [Family.ofLabel?_eq_some_iff.2 rfl]
  rfl

end Registration

namespace Operation

/-- Registrations and releases of a run concern its scope. -/
def Within (key : ObjectKey) : Operation → Prop
  | declare _ | retract _ => True
  | register _ r | deregister _ r => r.scopeKey = key

instance (key : ObjectKey) : (op : Operation) → Decidable (op.Within key)
  | declare _ | retract _ => isTrue trivial
  | register _ r | deregister _ r => inferInstanceAs (Decidable (r.scopeKey = key))

/-- What a dynamic registration asks for. -/
def asked? : Operation → Option Extent
  | register access r => if r.network.isSome then none else r.asked? access
  | declare _ | retract _ | deregister _ _ => none

/-- What a registration takes. -/
def taken? : Operation → Option Extent
  | register access r => r.taken? access
  | declare _ | retract _ | deregister _ _ => none

/-- What an operation takes is no pool for what a later one asks for: it is not wider. -/
def Cedes (earlier later : Operation) : Prop :=
  ∀ t ∈ earlier.taken?, ∀ a ∈ later.asked?, a.purpose = t.purpose → a.family = t.family →
    a.length ≤ t.length

instance (earlier later : Operation) : Decidable (Cedes earlier later) :=
  inferInstanceAs (Decidable (∀ t ∈ earlier.taken?, ∀ a ∈ later.asked?, a.purpose = t.purpose →
    a.family = t.family → a.length ≤ t.length))

end Operation

/-- The ways in which an operation inserts a network with labels into an index. -/
inductive Insertion (index : RouteIndex) : Operation → Network → Labels → Origin → Prop
  | declared {pool : Pool} {n : Network} (hparse : Network.parse pool.spec.network = .ok n) :
    Insertion index (.declare pool) n (declarationLabels pool.spec.labels n) .declared
  | named {access : Access} {r : Registration} {raw : String} {n : Network}
    (hnetwork : r.network = some raw) (hparse : Network.parse raw = .ok n) :
    Insertion index (.register access r) n r.combined.requirements .claimed
  /-- The block was free in a wider route matching the selector. -/
  | carved {access : Access} {r : Registration} {scope : Scope} {pool : Route} {n : Network}
    (hdynamic : r.network = none) (hfetch : access.fetchScope r.scopeKey = .ok (some scope))
    (hasks : r.Asks scope.spec n.length) (hpool : pool ∈ index.query r.selector)
    (hlt : pool.network.length < n.length) (hfree : index.IsFreeBlock pool.network n.length n) :
    Insertion index (.register access r) n r.combined.requirements .claimed

/-- What the labels of a route say about it for the operations that are still to come: a declared network
shows its family, and a claimed one is not wider than what a later registration with its purpose and family
asks for. -/
def Origin.Fits (rest : List Operation) (n : Network) (labels : Labels) : Origin → Prop
  | declared => labels.get? Labels.familyKey = some n.family.label
  | claimed => ∀ op ∈ rest, ∀ a ∈ op.asked?, labels.get? Labels.purposeKey = some a.purpose →
      labels.get? Labels.familyKey = some a.family.label → a.length ≤ n.length

section

variable {index : RouteIndex} {op : Operation} {rest : List Operation} {n : Network} {labels : Labels}
variable {origin : Origin}

/-- What fits the operations to come fits all but the first of them. -/
theorem Origin.Fits.tail (h : origin.Fits (op :: rest) n labels) : origin.Fits rest n labels := by
  cases origin with
  | declared => exact h
  | claimed => exact (List.forall_mem_cons.1 h).2

/-- A registration takes what the labels of its route say. -/
theorem Insertion.taken?_eq {a : Extent} (h : Insertion index op n labels .claimed)
    (hpurpose : labels.get? Labels.purposeKey = some a.purpose)
    (hfamily : labels.get? Labels.familyKey = some a.family.label) :
    op.taken? = some ⟨a.purpose, a.family, n.length⟩ := by
  cases h with
  | @named access r raw _ hnetwork hparse =>
    refine Registration.taken?_of_labels hpurpose hfamily ?_
    unfold Registration.length?
    rw [hnetwork]
    show (Network.parse raw).toOption.map _ = _
    rw [hparse]
    rfl
  | @carved access r scope pool _ hdynamic hfetch hasks _ _ _ =>
    refine Registration.taken?_of_labels hpurpose hfamily ?_
    obtain ⟨a', hasked, hlength, -, -⟩ := Registration.asked?_of_asks hfetch hasks
    unfold Registration.length?
    rw [hdynamic, hasked]
    exact congrArg some hlength

/-- What is inserted fits the operations to come if the inserting one cedes to them: the labels say what it
takes, and none asks for something longer. -/
theorem Insertion.fits (h : Insertion index op n labels origin)
    (hcedes : ∀ later ∈ rest, op.Cedes later) : origin.Fits rest n labels := by
  cases origin with
  | declared =>
    cases h
    exact SortedMap.get?_insert_self _ _ _
  | claimed =>
    intro later hlater a ha hpurpose hfamily
    exact hcedes later hlater _ (h.taken?_eq hpurpose hfamily) a ha rfl rfl

end

namespace Provenance

variable {indexes : ScopeIndexes} {key : ObjectKey} {s s' : Provenance} {op : Operation}
variable {ops rest : List Operation} {index index' : RouteIndex} {n m block : Network} {labels : Labels}
variable {origin origin' : Origin} {access : Access} {r : Registration} {changed : ScopeIndexes}

/-! ## What an operation does -/

/-- The networks of an origin are those with a route that this origin inserted last. -/
theorem mem_networksFrom_iff (hindex : s.indexes.get? key = some index) :
    n ∈ s.networksFrom key origin ↔
      (∃ labels, index.routes.get? n = some labels) ∧ s.origins.get? n = some origin := by
  unfold networksFrom
  rw [hindex, List.mem_filter, RouteIndex.mem_networks_iff, beq_iff_eq]

/-- The ways in which an operation ends. -/
inductive StepOutcome (key : ObjectKey) (s : Provenance) : Operation → Provenance → Prop
  /-- The operation fails or changes no route. -/
  | idle {op : Operation} : StepOutcome key s op s
  | inserted {op : Operation} {index index' : RouteIndex} {n : Network} {labels : Labels}
    {origin : Origin} (hindex : s.indexes.get? key = some index) (hnone : index.routes.get? n = none)
    (hself : index'.routes.get? n = some labels)
    (hothers : ∀ m, m ≠ n → index'.routes.get? m = index.routes.get? m)
    (hinsertion : Insertion index op n labels origin) :
    StepOutcome key s op ⟨s.indexes.insert key index', s.origins.insert n origin⟩
  | removed {op : Operation} {index index' : RouteIndex} {n : Network}
    (hindex : s.indexes.get? key = some index) (hroutes : index'.routes = index.routes.erase n) :
    StepOutcome key s op ⟨s.indexes.insert key index', s.origins⟩

/-- Where the network has a route already, nothing is noted. -/
theorem note_of_route (hindex : s.indexes.get? key = some index)
    (hget : index.routes.get? n = some labels) : s.note key origin (some (n, s.indexes)) = s := by
  have hroute : s.indexes.hasRoute key n = true := by
    rw [Ledger.hasRoute_of_get? hindex, SortedMap.contains, hget]
    rfl
  exact congrArg (Provenance.mk s.indexes) (if_pos hroute)

/-- Where the network had no route, its origin is noted. -/
theorem note_of_new (hindex : s.indexes.get? key = some index) (hget : index.routes.get? n = none) :
    s.note key origin (some (n, changed)) = ⟨changed, s.origins.insert n origin⟩ := by
  have hroute : ¬ s.indexes.hasRoute key n = true := by
    rw [Ledger.hasRoute_of_get? hindex, SortedMap.contains, hget]
    exact Bool.false_ne_true
  exact congrArg (Provenance.mk changed) (if_neg hroute)

/-- A network that is named is declared with its labels, unless it has a route. -/
theorem StepOutcome.of_declare (hindex : s.indexes.get? key = some index)
    (hcanonical : n.IsCanonical) (hdeclare : index.declare n labels = .ok index')
    (hinsertion : Insertion index op n labels origin) :
    StepOutcome key s op (s.note key origin (some (n, s.indexes.insert key index'))) := by
  cases hget : index.routes.get? n with
  | some labels' =>
    rw [RouteIndex.eq_of_declare hcanonical hget hdeclare, SortedMap.insert_of_get? hindex,
      note_of_route hindex hget]
    exact .idle
  | none =>
    obtain ⟨hself, hothers⟩ := RouteIndex.get?_of_declare hcanonical hdeclare
    rw [hget] at hself
    rw [note_of_new hindex hget]
    exact .inserted hindex hget hself hothers hinsertion

/-- A declaration fails, finds a route or inserts one of the network that the pool names. -/
theorem declare_outcome (pool : Pool) : StepOutcome key s (.declare pool) (s.step key (.declare pool)) := by
  rw [step]
  cases hdeclare : (s.indexes.declare key pool).2 with
  | error e => exact .idle
  | ok answer =>
    obtain ⟨n, changed⟩ := answer
    obtain ⟨hparse, index, index', hindex, hinsert, rfl⟩ := ScopeIndexes.declare_eq_ok_iff.1 hdeclare
    exact .of_declare hindex (Network.parse_isCanonical hparse) hinsert (.declared hparse)

/-- Taking a declaration back fails or removes one route. -/
theorem retract_outcome (raw : String) :
    StepOutcome key s (.retract raw) (s.step key (.retract raw)) := by
  rw [step]
  cases hretract : s.indexes.retract key raw with
  | error e => exact .idle
  | ok changed =>
    obtain ⟨n, -, ⟨-, rfl⟩ | ⟨index, index', hindex, hroutes, rfl⟩⟩ :=
      ScopeIndexes.retract_eq_ok_iff.1 hretract
    · exact .idle
    · exact .removed hindex hroutes

/-- A release fails or removes one route. -/
theorem deregister_outcome (access : Access) (hkey : r.scopeKey = key) :
    StepOutcome key s (.deregister access r) (s.step key (.deregister access r)) := by
  rw [step]
  cases hderegister : s.indexes.deregister access r with
  | error f => exact .idle
  | ok changed =>
    obtain ⟨-, ⟨-, rfl⟩ | ⟨n, index, index', -, hindex, hroutes, rfl⟩⟩ :=
      ScopeIndexes.deregister_eq_ok_iff.1 hderegister
    · exact .idle
    · rw [hkey] at hindex ⊢
      exact .removed hindex hroutes

/-- A dynamic registration finds a route or carves a block out of a wider one. -/
theorem register_dynamic_cases (hdynamic : r.network = none)
    (h : s.indexes.register access r = .ok (block, changed)) :
    ∃ index, s.indexes.get? r.scopeKey = some index ∧
      ((∃ labels, index.routes.get? block = some labels) ∧ changed = s.indexes ∨
        ∃ index' scope, ∃ pool ∈ index.query r.selector,
          access.fetchScope r.scopeKey = .ok (some scope) ∧ r.Asks scope.spec block.length ∧
            pool.network.length < block.length ∧ index.IsFreeBlock pool.network block.length block ∧
              index.add block r.combined.requirements = .ok index' ∧
                changed = s.indexes.insert r.scopeKey index') := by
  obtain ⟨scope, index, index', hready, hindex, hanswer, rfl⟩ := ScopeIndexes.register_eq_ok_iff.1 h
  have hfetch := (ScopeIndexes.readyScope_eq_ok_iff.1 hready).2.1
  have houtcome := index.register_outcome r.scopeKey scope.spec hdynamic
  rw [hanswer] at houtcome
  refine ⟨index, hindex, ?_⟩
  cases houtcome with
  | owned _ hget => exact Or.inl ⟨⟨_, hget⟩, SortedMap.insert_of_get? hindex⟩
  | @inserted _ pool _ hasks _ hpool hlt hfree hadd =>
    exact Or.inr ⟨index', scope, pool, hpool, hfetch, hasks, hlt, hfree, hadd, rfl⟩

/-- A registration fails, finds a route or inserts one, of the network that it names or of a block that it
carves. -/
theorem register_outcome (access : Access) (hkey : r.scopeKey = key) :
    StepOutcome key s (.register access r) (s.step key (.register access r)) := by
  subst hkey
  rw [step]
  cases hregister : s.indexes.register access r with
  | error f => exact .idle
  | ok answer =>
    obtain ⟨n, changed⟩ := answer
    cases hnetwork : r.network with
    | some raw =>
      obtain ⟨scope, index, index', -, hindex, hanswer, rfl⟩ :=
        ScopeIndexes.register_eq_ok_iff.1 hregister
      obtain ⟨hparse, hdeclare⟩ := (RouteIndex.register_of_network_eq_ok_iff hnetwork).1 hanswer
      exact .of_declare hindex (Network.parse_isCanonical hparse) hdeclare (.named hnetwork hparse)
    | none =>
      obtain ⟨index, hindex, ⟨⟨labels, hget⟩, rfl⟩ |
        ⟨index', scope, pool, hpool, hfetch, hasks, hlt, hfree, hadd, rfl⟩⟩ :=
          register_dynamic_cases hnetwork hregister
      · show StepOutcome _ s _ (s.note r.scopeKey .claimed (some (n, s.indexes)))
        rw [note_of_route hindex hget]
        exact .idle
      · obtain ⟨hnone, hself, hothers⟩ := RouteIndex.get?_of_add hfree.canonical hadd
        show StepOutcome _ s _ (s.note r.scopeKey .claimed (some (n, _)))
        rw [note_of_new hindex hnone]
        exact .inserted hindex hnone hself hothers (.carved hnetwork hfetch hasks hpool hlt hfree)

/-- How each of the four operations ends. -/
theorem step_outcome (hwithin : op.Within key) : StepOutcome key s op (s.step key op) := by
  cases op with
  | declare pool => exact declare_outcome pool
  | retract raw => exact retract_outcome raw
  | register access r => exact register_outcome access hwithin
  | deregister access r => exact deregister_outcome access hwithin

/-! ## Every route has an origin -/

/-- The scope has an index, and its routes have origins that fit them. -/
def Traced (key : ObjectKey) (rest : List Operation) (s : Provenance) : Prop :=
  ∃ index, s.indexes.get? key = some index ∧
    ∀ n labels, index.routes.get? n = some labels →
      ∃ origin, s.origins.get? n = some origin ∧ origin.Fits rest n labels

/-- An index without routes has none without an origin. -/
theorem traced_start (indexes : ScopeIndexes) (key : ObjectKey) (rest : List Operation) :
    (start indexes key).Traced key rest :=
  ⟨.empty, SortedMap.get?_insert_self _ _ _, fun _ _ h => nomatch h.symm.trans (SortedMap.get?_empty _)⟩

/-- Each operation leaves every route with an origin that fits, if it cedes to those to come. -/
theorem Traced.step (h : s.Traced key (op :: rest)) (hwithin : op.Within key)
    (hcedes : ∀ later ∈ rest, op.Cedes later) : (s.step key op).Traced key rest := by
  have houtcome := step_outcome (s := s) hwithin
  obtain ⟨index, hindex, hroutes⟩ := h
  generalize s.step key op = s' at houtcome
  cases houtcome with
  | idle =>
    refine ⟨index, hindex, fun m labels hm => ?_⟩
    obtain ⟨origin, horigin, hfits⟩ := hroutes m labels hm
    exact ⟨origin, horigin, hfits.tail⟩
  | @inserted _ _ n _ origin hindex₁ _ hself hothers hinsertion =>
    obtain rfl := Option.some.inj (hindex.symm.trans hindex₁)
    refine ⟨_, SortedMap.get?_insert_self _ _ _, fun m labels hm => ?_⟩
    by_cases heq : m = n
    · subst heq
      cases hself.symm.trans hm
      exact ⟨origin, SortedMap.get?_insert_self _ _ _, hinsertion.fits hcedes⟩
    · rw [hothers m heq] at hm
      obtain ⟨origin', horigin, hfits⟩ := hroutes m labels hm
      exact ⟨origin', (SortedMap.get?_insert_of_ne _ heq).trans horigin, hfits.tail⟩
  | @removed _ _ n hindex₁ herase =>
    obtain rfl := Option.some.inj (hindex.symm.trans hindex₁)
    obtain ⟨hgone, hothers⟩ := RouteIndex.get?_of_erase herase
    refine ⟨_, SortedMap.get?_insert_self _ _ _, fun m labels hm => ?_⟩
    have hne : m ≠ n := by
      rintro rfl
      cases hgone.symm.trans hm
    rw [hothers m hne] at hm
    obtain ⟨origin, horigin, hfits⟩ := hroutes m labels hm
    exact ⟨origin, horigin, hfits.tail⟩

/-- By induction on the run: each operation cedes to all that come after it. -/
theorem Traced.run (h : s.Traced key (ops ++ rest)) (hwithin : ∀ op ∈ ops, op.Within key)
    (hcedes : (ops ++ rest).Pairwise Operation.Cedes) : (s.run key ops).Traced key rest := by
  induction ops generalizing s with
  | nil => exact h
  | cons op ops ih =>
    obtain ⟨hop, hwithin⟩ := List.forall_mem_cons.1 hwithin
    obtain ⟨hfirst, hcedes⟩ := List.pairwise_cons.1 hcedes
    exact ih (h.step hop hfirst) hwithin hcedes

/-! ## Declared networks outside claimed ones -/

/-- No network is declared inside one that a claim has, and no claim names one around a declared network. -/
def Shelters (key : ObjectKey) (s : Provenance) : Operation → Prop
  | .declare pool => ∀ n ∈ (Network.parse pool.spec.network).toOption, ∀ m ∈ s.claimed key,
      m ≠ n → m.contains n = false
  | .register _ r => ∀ raw ∈ r.network, ∀ n ∈ (Network.parse raw).toOption, ∀ m ∈ s.declared key,
      m ≠ n → n.contains m = false
  | .retract _ | .deregister _ _ => True

instance (key : ObjectKey) (s : Provenance) : (op : Operation) → Decidable (s.Shelters key op)
  | .declare pool => inferInstanceAs (Decidable (∀ n ∈ (Network.parse pool.spec.network).toOption,
      ∀ m ∈ s.claimed key, m ≠ n → m.contains n = false))
  | .register _ r => inferInstanceAs (Decidable (∀ raw ∈ r.network,
      ∀ n ∈ (Network.parse raw).toOption, ∀ m ∈ s.declared key, m ≠ n → n.contains m = false))
  | .retract _ | .deregister _ _ => isTrue trivial

/-- Each operation of a run shelters the declared networks. -/
def SheltersAlong (key : ObjectKey) : Provenance → List Operation → Prop
  | _, [] => True
  | s, op :: rest => s.Shelters key op ∧ SheltersAlong key (s.step key op) rest

instance decidableSheltersAlong (key : ObjectKey) :
    (s : Provenance) → (ops : List Operation) → Decidable (SheltersAlong key s ops)
  | _, [] => isTrue trivial
  | s, op :: rest =>
    have := decidableSheltersAlong key (s.step key op) rest
    inferInstanceAs (Decidable (s.Shelters key op ∧ SheltersAlong key (s.step key op) rest))

/-- No claimed network is around a declared one. -/
def Sheltered (key : ObjectKey) (s : Provenance) : Prop :=
  ∀ n ∈ s.claimed key, ∀ m ∈ s.declared key, n.contains m = false

/-- An index without routes has none around another one. -/
theorem sheltered_start (indexes : ScopeIndexes) (key : ObjectKey) :
    (start indexes key).Sheltered key := by
  intro n hn
  obtain ⟨⟨labels, hget⟩, -⟩ :=
    (mem_networksFrom_iff (s := start indexes key) (SortedMap.get?_insert_self _ _ _)).1 hn
  cases hget.symm.trans (SortedMap.get?_empty _)

/-- The networks after an insertion are those before and the new one. -/
theorem mem_networksFrom_insert (hindex : s.indexes.get? key = some index)
    (hothers : ∀ m, m ≠ n → index'.routes.get? m = index.routes.get? m)
    (hm : m ∈ networksFrom ⟨s.indexes.insert key index', s.origins.insert n origin⟩ key origin') :
    m = n ∧ origin = origin' ∨ m ∈ s.networksFrom key origin' := by
  obtain ⟨⟨labels, hget⟩, horigin⟩ := (mem_networksFrom_iff (SortedMap.get?_insert_self _ _ _)).1 hm
  by_cases heq : m = n
  · subst heq
    rw [SortedMap.get?_insert_self] at horigin
    exact Or.inl ⟨rfl, Option.some.inj horigin⟩
  · rw [SortedMap.get?_insert_of_ne _ heq] at horigin
    rw [hothers m heq] at hget
    exact Or.inr ((mem_networksFrom_iff hindex).2 ⟨⟨labels, hget⟩, horigin⟩)

/-- Taking a route away adds to no origin. -/
theorem mem_networksFrom_erase (hindex : s.indexes.get? key = some index)
    (hroutes : index'.routes = index.routes.erase n)
    (hm : m ∈ networksFrom ⟨s.indexes.insert key index', s.origins⟩ key origin) :
    m ∈ s.networksFrom key origin := by
  obtain ⟨⟨labels, hget⟩, horigin⟩ := (mem_networksFrom_iff (SortedMap.get?_insert_self _ _ _)).1 hm
  rw [hroutes] at hget
  exact (mem_networksFrom_iff hindex).2 ⟨⟨labels, SortedMap.get?_of_get?_erase hget⟩, horigin⟩

/-- A block that is free in a pool contains no route: such a route would lie around the pool. -/
theorem contains_eq_false_of_isFreeBlock {pool : Network} (hlt : pool.length < n.length)
    (hfree : index.IsFreeBlock pool n.length n) (hm : index.routes.get? m = some labels) :
    n.contains m = false := by
  by_contra hcontains
  rw [Bool.not_eq_false] at hcontains
  have hmeet : m.overlaps n = true := Network.overlaps_iff.2 (Or.inr hcontains)
  have haround := RouteIndex.isClear_iff.1 hfree.clear m (RouteIndex.mem_networks_iff.2 ⟨labels, hm⟩) hmeet
  have hlength := Network.length_le_of_contains (Network.contains_trans hcontains haround)
  omega

/-- An operation that shelters keeps declared networks out of claimed ones. -/
theorem Sheltered.step (h : s.Sheltered key) (hwithin : op.Within key) (hshelters : s.Shelters key op) :
    (s.step key op).Sheltered key := by
  have houtcome := step_outcome (s := s) hwithin
  generalize s.step key op = s' at houtcome
  cases houtcome with
  | idle => exact h
  | removed hindex hroutes =>
    exact fun m hm m' hm' => h m (mem_networksFrom_erase hindex hroutes hm) m'
      (mem_networksFrom_erase hindex hroutes hm')
  | @inserted index index' n labels origin hindex hnone hself hothers hinsertion =>
    have hne : ∀ m origin, m ∈ s.networksFrom key origin → m ≠ n := by
      rintro m origin hm rfl
      obtain ⟨⟨labels, hget⟩, -⟩ := (mem_networksFrom_iff hindex).1 hm
      cases hnone.symm.trans hget
    intro m hm m' hm'
    rcases mem_networksFrom_insert hindex hothers hm with ⟨rfl, rfl⟩ | hold
    · rcases mem_networksFrom_insert hindex hothers hm' with ⟨-, heq⟩ | hold'
      · cases heq
      · cases hinsertion with
        | named hnetwork hparse =>
          exact hshelters _ hnetwork _ (by rw [hparse]; rfl) m' hold' (hne m' _ hold')
        | carved _ _ _ _ hlt hfree =>
          obtain ⟨⟨labels', hget⟩, -⟩ := (mem_networksFrom_iff hindex).1 hold'
          exact contains_eq_false_of_isFreeBlock hlt hfree hget
    · rcases mem_networksFrom_insert hindex hothers hm' with ⟨rfl, rfl⟩ | hold'
      · cases hinsertion with
        | declared hparse => exact hshelters _ (by rw [hparse]; rfl) m hold (hne m _ hold)
      · exact h m hold m' hold'

/-- A run of operations that shelter keeps declared networks out of claimed ones. -/
theorem Sheltered.run (h : s.Sheltered key) (hwithin : ∀ op ∈ ops, op.Within key)
    (hshelters : SheltersAlong key s ops) : (s.run key ops).Sheltered key := by
  induction ops generalizing s with
  | nil => exact h
  | cons op rest ih =>
    obtain ⟨hop, hwithin⟩ := List.forall_mem_cons.1 hwithin
    exact ih (h.step hop hshelters.1) hwithin hshelters.2

/-! ## The pool of a new block -/

/-- In a traced scope the pool of a block that is new was declared, and it has the family asked for. -/
theorem Traced.exists_declared (h : s.Traced key [.register access r]) (hkey : r.scopeKey = key)
    (hdynamic : r.network = none) (hregister : s.indexes.register access r = .ok (block, changed))
    (hnew : s.indexes.hasRoute key block = false) :
    ∃ pool ∈ s.declared key, pool.length < block.length ∧ pool.contains block = true ∧
      r.selector.get? Labels.familyKey = some block.family.label ∧
        ∀ n ∈ s.claimed key, n.contains block = true → n.contains pool = true := by
  subst hkey
  obtain ⟨index, hindex, hroutes⟩ := h
  obtain ⟨index₁, hindex₁, ⟨⟨labels, hget⟩, -⟩ |
    ⟨index', scope, pool, hpool, hfetch, hasks, hlt, hfree, -, -⟩⟩ :=
      register_dynamic_cases hdynamic hregister
  · rw [Ledger.hasRoute_of_get? hindex₁, SortedMap.contains, hget] at hnew
    cases hnew
  obtain rfl := Option.some.inj (hindex.symm.trans hindex₁)
  obtain ⟨hget, hmatch⟩ := RouteIndex.mem_query_iff.1 hpool
  obtain ⟨a, hasked, hlength, hpurpose, hfamily⟩ := Registration.asked?_of_asks hfetch hasks
  have hmatch := Selector.matchesLabels_iff.1 hmatch
  obtain ⟨origin, horigin, hfits⟩ := hroutes pool.network pool.labels hget
  cases origin with
  | claimed =>
    -- the route of a claim is not wide enough for what the selector asks for
    have hasked : (Operation.register access r).asked? = some a := by
      show (if r.network.isSome then none else r.asked? access) = some a
      rw [hdynamic, hasked]
      rfl
    have := hfits _ (List.mem_singleton.2 rfl) a hasked (hmatch _ _ hpurpose) (hmatch _ _ hfamily)
    omega
  | declared =>
    have hsame : pool.network.family = block.family := (Network.contains_iff.1 hfree.inside).1
    refine ⟨pool.network, (mem_networksFrom_iff hindex).2 ⟨⟨_, hget⟩, horigin⟩, hlt, hfree.inside, ?_, ?_⟩
    · rw [hfamily, ← hsame, ← Option.some.inj (hfits.symm.trans (hmatch _ _ hfamily))]
    · intro n hn hcontains
      obtain ⟨⟨labels, hn⟩, -⟩ := (mem_networksFrom_iff hindex).1 hn
      exact RouteIndex.isClear_iff.1 hfree.clear n (RouteIndex.mem_networks_iff.2 ⟨labels, hn⟩)
        (Network.overlaps_of_contains hcontains)

/-- After any operations on a scope that begins without routes, under default lengths that may change from
one to the next: when no registration asks for more than claims with its purpose and family took before, a
block that a dynamic registration inserts lies strictly inside a declared network, is of the family asked
for, and lies in no claimed network but those around that declared one. There is none of these when
declared networks were kept out of claimed ones. -/
theorem dynamic_block_from_declared (indexes : ScopeIndexes) (key : ObjectKey)
    (hwithin : ∀ op ∈ ops ++ [Operation.register access r], op.Within key)
    (hcedes : (ops ++ [Operation.register access r]).Pairwise Operation.Cedes) (hdynamic : r.network = none)
    (hregister : ((start indexes key).run key ops).indexes.register access r = .ok (block, changed))
    (hnew : ((start indexes key).run key ops).indexes.hasRoute key block = false) :
    (∃ pool ∈ ((start indexes key).run key ops).declared key, pool.length < block.length ∧
      pool.contains block = true ∧ r.selector.get? Labels.familyKey = some block.family.label ∧
        ∀ n ∈ ((start indexes key).run key ops).claimed key, n.contains block = true →
          n.contains pool = true) ∧
    (SheltersAlong key (start indexes key) ops →
      ∀ n ∈ ((start indexes key).run key ops).claimed key, n.contains block = false) := by
  obtain ⟨hbefore, hlast⟩ := List.forall_mem_append.1 hwithin
  have hkey : r.scopeKey = key := hlast _ (List.mem_singleton.2 rfl)
  have htraced := (traced_start indexes key (ops ++ [Operation.register access r])).run hbefore hcedes
  obtain ⟨pool, hpool, hlt, hinside, hfamily, haround⟩ :=
    htraced.exists_declared hkey hdynamic hregister hnew
  refine ⟨⟨pool, hpool, hlt, hinside, hfamily, haround⟩, fun hshelters n hn => ?_⟩
  by_contra hcontains
  rw [Bool.not_eq_false] at hcontains
  have hapart := (sheltered_start indexes key).run hbefore hshelters n hn pool hpool
  rw [haround n hn hcontains] at hapart
  cases hapart

end Provenance

/-! ## Sample runs -/

namespace Sample

def provenance (ops : List Operation) : Provenance := (Provenance.start .empty key).run key ops

/-- A claim that names its network, with labels that the other claims ask for. -/
def named (network : String) : Registration :=
  { registration "site" none with network := some network }

def request : Registration := registration "core" none

/-- A pool, a claim of a wide network with another purpose, and a dynamic claim. -/
def beside : List Operation :=
  [.declare (pool "10.0.0.0/30"),
    .register access { named "10.9.0.0/16" with
      selector := ⟨.ofList [(Labels.purposeKey, "transit"), (Labels.familyKey, "ipv4")]⟩ },
    .register access (registration "edge" none)]

/-- A claim of a wide network with the same purpose, and nothing declared. -/
def wide : List Operation := [.register access (named "10.0.0.0/30")]

/-- The registry when the default length was shorter. -/
def earlier : Access :=
  ⟨⟨.ofList [(⟨.scope, key⟩, .scope { scope with
    spec := { spec with defaultLengths := .ofList [("loopback", .ofList [(.ipv4, 31)])] } })], []⟩, []⟩

/-- A dynamic claim with a block of the shorter length; then its pool is retracted. -/
def orphaned : List Operation :=
  [.declare (pool "10.0.0.0/30"), .register earlier (registration "edge" none), .retract "10.0.0.0/30"]

end Sample

namespace Provenance

/-- A claim gets a block beside another one's network, in the network that was declared. -/
theorem dynamic_block_from_declared_sample :
    (∀ op ∈ Sample.beside ++ [Operation.register Sample.access Sample.request], op.Within Sample.key) ∧
      (Sample.beside ++ [Operation.register Sample.access Sample.request]).Pairwise Operation.Cedes ∧
        SheltersAlong Sample.key (start .empty Sample.key) Sample.beside ∧
          ∃ block changed,
            (Sample.provenance Sample.beside).indexes.register Sample.access Sample.request
              = .ok (block, changed) ∧
            (∃ pool ∈ (Sample.provenance Sample.beside).declared Sample.key,
              pool.contains block = true) ∧
            ∀ n ∈ (Sample.provenance Sample.beside).claimed Sample.key, n.contains block = false := by
  have hwithin : ∀ op ∈ Sample.beside ++ [Operation.register Sample.access Sample.request],
      op.Within Sample.key := by
    decide +kernel
  have hcedes : (Sample.beside ++ [Operation.register Sample.access Sample.request]).Pairwise
      Operation.Cedes := by
    decide +kernel
  have hshelters : SheltersAlong Sample.key (start .empty Sample.key) Sample.beside := by
    decide +kernel
  have hanswer : ∃ answer ∈ ((Sample.provenance Sample.beside).indexes.register Sample.access
      Sample.request).toOption,
      (Sample.provenance Sample.beside).indexes.hasRoute Sample.key answer.1 = false := by
    decide +kernel
  obtain ⟨⟨block, changed⟩, hok, hnew⟩ := hanswer
  have hregister := Except.toOption_eq_some_iff.1 hok
  obtain ⟨⟨pool, hpool, -, hinside, -⟩, hapart⟩ :=
    dynamic_block_from_declared .empty Sample.key hwithin hcedes rfl hregister hnew
  exact ⟨hwithin, hcedes, hshelters, block, changed, hregister, ⟨pool, hpool, hinside⟩, hapart hshelters⟩

/-- A claim names a network where nothing is declared, and a dynamic claim gets a block inside it. -/
theorem block_carved_from_claim :
    (Sample.provenance Sample.wide).declared Sample.key = [] ∧
      ∃ answer ∈ ((Sample.provenance Sample.wide).indexes.register Sample.access
          Sample.request).toOption,
        (Sample.provenance Sample.wide).indexes.hasRoute Sample.key answer.1 = false ∧
          ∃ n ∈ (Sample.provenance Sample.wide).claimed Sample.key, n.contains answer.1 = true := by
  decide +kernel

-- The default length is raised, and a dynamic claim gets a block inside the block of another one.
example :
    (Sample.provenance Sample.orphaned).declared Sample.key = [] ∧
      ∃ answer ∈ ((Sample.provenance Sample.orphaned).indexes.register Sample.access
          Sample.request).toOption,
        (Sample.provenance Sample.orphaned).indexes.hasRoute Sample.key answer.1 = false ∧
          ∃ n ∈ (Sample.provenance Sample.orphaned).claimed Sample.key, n.contains answer.1 = true := by
  decide +kernel

end Provenance

end AddressRegistry
