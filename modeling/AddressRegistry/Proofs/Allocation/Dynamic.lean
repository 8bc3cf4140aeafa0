import AddressRegistry.Proofs.Outcome
import AddressRegistry.Proofs.Route.Search

/-!
# What a dynamic registration does to an index

A dynamic registration either answers a block that the claim owns already and changes nothing, or
inserts a block that was free in a wider route matching the selector, or fails
(`RegisterOutcome`, `registerDynamic_outcome`). It reports exhaustion only when no matching route has
room, and no conflict ever. When the block that the claim held before is free in a matching route, that
block is the answer (`registerDynamic_restores`).
-/

namespace AddressRegistry

/-! ## What a registration asks for -/

/-- A family has one name. -/
theorem Family.ofLabel?_eq_some_iff {name : String} {family : Family} :
    Family.ofLabel? name = some family ↔ name = family.label := by
  constructor
  · intro h
    have := List.find?_some h
    exact (beq_iff_eq.1 this).symm
  · rintro rfl
    cases family <;> rfl

/-- No two families have one name. -/
theorem Family.label_injective : Function.Injective Family.label := by
  intro family family' h
  have hfamily := ofLabel?_eq_some_iff.2 h
  rw [ofLabel?_eq_some_iff.2 rfl] at hfamily
  exact Option.some.inj hfamily

/-- A text is read as a family exactly if it is the name of the family. -/
theorem Family.parse_eq_ok_iff {name : String} {family : Family} :
    Family.parse name = .ok family ↔ name = family.label := by
  rw [← Family.ofLabel?_eq_some_iff, Family.parse]
  cases Family.ofLabel? name <;> simp

/-- A text that is no family is an invalid input. -/
theorem Family.parse_eq_error {name : String} {e : RegistryError}
    (h : Family.parse name = .error e) : ∃ fault, e = .invalidInput fault := by
  unfold Family.parse at h
  split at h
  · cases h
  · cases h
    exact ⟨_, rfl⟩

/-- A text that is no network is an invalid input. -/
theorem Network.parse_eq_error {raw : String} {e : RegistryError}
    (h : Network.parse raw = .error e) : ∃ fault, e = .invalidInput fault := by
  unfold Network.parse at h
  split at h
  · cases h
  · cases h
    exact ⟨_, rfl⟩

/-- What is read as a network has no host bits. -/
theorem Network.parse_isCanonical {raw : String} {n : Network} (h : Network.parse raw = .ok n) :
    n.IsCanonical := by
  unfold Network.parse at h
  split at h
  · cases h
    exact Network.truncate_isCanonical _
  · cases h

namespace Registration

variable {r : Registration} {key value purpose : String} {family : Family} {e : RegistryError}

/-- A requirement is found when the selector states it. -/
theorem requirement_eq_ok_iff : r.requirement key = .ok value ↔ r.selector.get? key = some value := by
  unfold requirement
  cases r.selector.get? key <;> simp

/-- A requirement that is missing is an invalid input. -/
theorem requirement_eq_error (h : r.requirement key = .error e) :
    ∃ fault, e = .invalidInput fault := by
  unfold requirement at h
  split at h
  · cases h
  · cases h
    exact ⟨_, rfl⟩

/-- The purpose of a registration is the one that its selector states. -/
theorem purpose_eq_ok_iff :
    r.purpose = .ok purpose ↔ r.selector.get? Labels.purposeKey = some purpose :=
  requirement_eq_ok_iff

/-- The family of a registration is the one that its selector names. -/
theorem family_eq_ok_iff :
    r.family = .ok family ↔ r.selector.get? Labels.familyKey = some family.label := by
  unfold Registration.family
  rw [Except.bind_eq_ok_iff]
  constructor
  · rintro ⟨name, hname, hparse⟩
    rw [← Family.parse_eq_ok_iff.1 hparse]
    exact requirement_eq_ok_iff.1 hname
  · intro h
    exact ⟨_, requirement_eq_ok_iff.2 h, Family.parse_eq_ok_iff.2 rfl⟩

/-- A family that is missing or unknown is an invalid input. -/
theorem family_eq_error (h : r.family = .error e) : ∃ fault, e = .invalidInput fault := by
  rcases Except.bind_eq_error_iff.1 h with h | ⟨name, -, h⟩
  · exact requirement_eq_error h
  · exact Family.parse_eq_error h

/-- A network on record that cannot be read is an invalid input. -/
theorem persistedNetwork_eq_error (h : r.persistedNetwork = .error e) :
    ∃ fault, e = .invalidInput fault := by
  unfold persistedNetwork at h
  split at h
  · exact Network.parse_eq_error (Except.map_eq_error_iff.1 h)
  · cases h

/-- A network on record is read without host bits. -/
theorem isCanonical_of_persistedNetwork {n : Network} (h : r.persistedNetwork = .ok (some n)) :
    n.IsCanonical := by
  unfold persistedNetwork at h
  split at h
  · obtain ⟨n', hparse, heq⟩ := Except.map_eq_ok_iff.1 h
    cases heq
    exact Network.parse_isCanonical hparse
  · cases h

/-- The length that a scope gives for what the selector asks for. -/
def Asks (r : Registration) (spec : ScopeSpec) (length : Nat) : Prop :=
  ∃ purpose family, r.selector.get? Labels.purposeKey = some purpose ∧
    r.selector.get? Labels.familyKey = some family.label ∧
      spec.lengthFor purpose family = some length

/-- The length that a scope gives for what the selector asks for, computed. -/
def askedLength? (r : Registration) (spec : ScopeSpec) : Option Nat :=
  (r.selector.get? Labels.purposeKey).bind fun purpose =>
    (r.selector.get? Labels.familyKey).bind fun family =>
      (Family.parse family).toOption.bind fun family => spec.lengthFor purpose family

/-- What is asked for with a known purpose and family, in a scope with a length for them, is that length. -/
theorem askedLength?_of_asks {spec : ScopeSpec} {length : Nat} (h : r.Asks spec length) :
    r.askedLength? spec = some length := by
  obtain ⟨purpose, family, hpurpose, hfamily, hlength⟩ := h
  have hparse : Family.parse family.label = .ok family := Family.parse_eq_ok_iff.2 rfl
  refine Option.bind_eq_some_iff.2 ⟨purpose, hpurpose, Option.bind_eq_some_iff.2 ⟨_, hfamily, ?_⟩⟩
  rw [hparse]
  exact hlength

end Registration

/-! ## Choosing among routes -/

/-- The pick is one of the routes. -/
theorem Route.mem_of_pickUnique {l : List Route} {o : Route} (h : Route.pickUnique l = some o) :
    o ∈ l := by
  cases l with
  | nil => cases h
  | cons a rest =>
    have hfold : ∀ (rest : List Route) (a : Route),
        rest.foldl (fun best x => if x.network.text < best.network.text then x else best) a
          ∈ a :: rest := by
      intro rest
      induction rest with
      | nil => exact fun a => List.mem_singleton.2 rfl
      | cons b rest ih =>
        intro a
        rw [List.foldl_cons]
        rcases List.mem_cons.1 (ih (if b.network.text < a.network.text then b else a)) with h | h
        · rw [h]
          split <;> simp
        · exact List.mem_cons_of_mem _ (List.mem_cons_of_mem _ h)
    cases h
    exact hfold rest a

/-- There is a pick unless there are no routes. -/
theorem Route.pickUnique_eq_none_iff {l : List Route} : Route.pickUnique l = none ↔ l = [] := by
  cases l <;> simp [Route.pickUnique]

namespace RouteIndex

variable {index : RouteIndex} {scope : ObjectKey} {spec : ScopeSpec} {r : Registration}
variable {purpose : String} {family : Family} {persisted : Option Network} {length : Nat}
variable {block n : Network} {pools : List Network} {changed : RouteIndex}

/-- Placing a network in the order of the texts adds it and loses none. -/
theorem mem_placeByText {m : Network} {l : List Network} :
    n ∈ placeByText m l ↔ n = m ∨ n ∈ l := by
  induction l with
  | nil => simp [placeByText]
  | cons c rest ih =>
    unfold placeByText
    split
    · rw [List.mem_cons]
    · rw [List.mem_cons, ih, List.mem_cons]
      exact or_left_comm

/-- Candidate pools are the routes wider than the length. -/
theorem mem_poolsFor_iff {matching : List Route} :
    n ∈ poolsFor matching length ↔ ∃ q ∈ matching, q.network = n ∧ n.length < length := by
  have hsort : ∀ l : List Network, n ∈ l.foldr placeByText [] ↔ n ∈ l := by
    intro l
    induction l with
    | nil => rfl
    | cons m rest ih => rw [List.foldr_cons, mem_placeByText, ih, List.mem_cons]
  unfold poolsFor
  rw [hsort, List.mem_filter, List.mem_map, decide_eq_true_eq]
  exact ⟨fun ⟨⟨q, hq, heq⟩, hlt⟩ => ⟨q, hq, heq, hlt⟩, fun ⟨q, hq, heq, hlt⟩ => ⟨⟨q, hq, heq⟩, hlt⟩⟩

/-- A block is restored when it has the length that is asked for and is free in one of the pools. -/
theorem canRestore_iff :
    index.canRestore pools length block = true ↔
      block.length = length ∧ ∃ pool ∈ pools, index.isFreeWithin pool block = true := by
  unfold canRestore
  rw [Bool.and_eq_true, beq_iff_eq, List.any_eq_true]

/-! ## Choosing a block -/

/-- The three ways in which choosing a block of a length for a claim out of some pools ends. -/
inductive ChoiceOutcome (index : RouteIndex) (pools : List Network) (length : Nat) :
    Except RegistryError Network → Prop
  | found {pool block : Network} (hpool : pool ∈ pools)
    (hfree : index.IsFreeBlock pool length block) : ChoiceOutcome index pools length (.ok block)
  | full {text : String} {n : Nat}
    (hnone : ∀ pool ∈ pools, ∀ block, ¬ index.IsFreeBlock pool length block) :
    ChoiceOutcome index pools length (.error (.exhausted text n))
  | refused {e : RegistryError} (hconflict : e.isConflict = false)
    (hexhausted : e.isExhausted = false) : ChoiceOutcome index pools length (.error e)

/-- One search is a choice among one pool. -/
theorem ChoiceOutcome.of_search {pool : Network} {answer : Except RegistryError Network}
    (h : SearchOutcome index pool length answer) : ChoiceOutcome index [pool] length answer := by
  cases h with
  | refused _ => exact .refused rfl rfl
  | found _ hfree => exact .found (List.mem_singleton.2 rfl) hfree
  | full _ _ hnone => exact .full (List.forall_mem_singleton.2 hnone)

/-- A full pool in front changes nothing. -/
theorem ChoiceOutcome.cons {pool : Network} {answer : Except RegistryError Network}
    (hnone : ∀ block, ¬ index.IsFreeBlock pool length block)
    (h : ChoiceOutcome index pools length answer) :
    ChoiceOutcome index (pool :: pools) length answer := by
  cases h with
  | found hpool hfree => exact .found (List.mem_cons_of_mem _ hpool) hfree
  | full hrest => exact .full (List.forall_mem_cons.2 ⟨hnone, hrest⟩)
  | refused hconflict hexhausted => exact .refused hconflict hexhausted

/-- Carving tries pool after pool: it finds a block that is free in one of them, and reports exhaustion only
after all of them had no room. By induction on the pools. -/
theorem carve_outcome (strategy : Strategy) (pools : List Network) :
    ChoiceOutcome index pools length (index.carve strategy length r pools) := by
  fun_induction carve index strategy length r pools with
  | case1 => exact .refused rfl rfl
  | case2 pool => exact .of_search (allocate_outcome strategy index pool length r.identity)
  | case3 pool rest _ block hblock =>
    have := allocate_outcome strategy index pool length r.identity
    rw [hblock] at this
    cases this with
    | found _ hfree => exact .found List.mem_cons_self hfree
  | case4 pool rest _ e hallocate hexhausted ih =>
    have := allocate_outcome strategy index pool length r.identity
    rw [hallocate] at this
    cases this with
    | refused _ => cases hexhausted
    | full _ _ hnone => exact ih.cons hnone
  | case5 pool rest _ e hallocate hexhausted =>
    have := allocate_outcome strategy index pool length r.identity
    rw [hallocate] at this
    cases this with
    | refused _ => exact .refused rfl rfl
    | full _ _ _ => exact absurd rfl hexhausted

/-- The block for a claim that owns none: the one it held before if that can be given back, else one
that the strategy finds. -/
def chosen (index : RouteIndex) (strategy : Strategy) (length : Nat) (r : Registration)
    (pools : List Network) (persisted : Option Network) : Except RegistryError Network :=
  match persisted.filter (index.canRestore pools length) with
  | some restored => .ok restored
  | none => index.carve strategy length r pools

/-- A block that can be restored is chosen, whatever the strategy. -/
theorem chosen_of_canRestore {strategy : Strategy}
    (h : index.canRestore pools length block = true) :
    index.chosen strategy length r pools (some block) = .ok block := by
  unfold chosen
  rw [Option.filter_some_pos h]

/-- What is chosen is free in one of the pools, be it the block on record or one that was carved. Exhaustion
is reported only when no pool has room. -/
theorem chosen_outcome (strategy : Strategy) (hpersisted : ∀ n ∈ persisted, n.IsCanonical) :
    ChoiceOutcome index pools length (index.chosen strategy length r pools persisted) := by
  unfold chosen
  split
  · rename_i restored hrestored
    obtain ⟨hmem, hcan⟩ := Option.filter_eq_some_iff.1 hrestored
    obtain ⟨hlen, pool, hpool, hwithin⟩ := canRestore_iff.1 hcan
    obtain ⟨-, hinside, hclear⟩ := isFreeWithin_iff.1 hwithin
    exact .found hpool ⟨hpersisted restored hmem, hlen, hinside, hclear⟩
  · exact carve_outcome strategy pools

/-! ## The whole registration -/

/-- A dynamic registration of a claim whose selector can be read, step by step. -/
theorem registerDynamic_eq (hpurpose : r.purpose = .ok purpose) (hfamily : r.family = .ok family)
    (hpersisted : r.persistedNetwork = .ok persisted) :
    index.registerDynamic scope spec r =
      if (index.query r.selector).isEmpty then
        .error (.noAvailableRoute r.selector.text)
      else
        match spec.lengthFor purpose family with
        | none => .error (.missingConfiguration (.noDefaultLength scope purpose family))
        | some length =>
          match Route.pickUnique
              ((index.owned r.combined).filter fun o => o.network.length == length) with
          | some route => .ok (route.network, index)
          | none =>
            if (poolsFor (index.query r.selector) length).isEmpty then
              .error (.noAvailableRoute r.selector.text)
            else
              index.chosen spec.strategy length r (poolsFor (index.query r.selector) length)
                persisted >>= fun block =>
                  (index.add block r.combined.requirements).map fun changed => (block, changed) := by
  unfold registerDynamic
  rw [hpurpose, hfamily, hpersisted]
  show (if (index.query r.selector).isEmpty then _ else _) = _
  split
  · rfl
  · cases spec.lengthFor purpose family with
    | none => rfl
    | some length =>
      dsimp only
      cases Route.pickUnique
          ((index.owned r.combined).filter fun o => o.network.length == length) with
      | some route => rfl
      | none =>
        dsimp only
        split
        · rfl
        · unfold chosen
          cases persisted.filter (index.canRestore _ length) <;> rfl

/-- The ways in which a dynamic registration ends. -/
inductive RegisterOutcome (index : RouteIndex) (spec : ScopeSpec) (r : Registration) :
    Except RegistryError (Network × RouteIndex) → Prop
  /-- The claim owns a block of its length already. -/
  | owned {block : Network} (hasks : r.Asks spec block.length)
    (hget : index.routes.get? block = some r.combined.requirements) :
    RegisterOutcome index spec r (.ok (block, index))
  /-- A block that was free in a wider route matching the selector is inserted. -/
  | inserted {block : Network} {pool : Route} {changed : RouteIndex}
    (hasks : r.Asks spec block.length)
    (hunowned : ∀ n, index.routes.get? n = some r.combined.requirements → n.length ≠ block.length)
    (hpool : pool ∈ index.query r.selector) (hlt : pool.network.length < block.length)
    (hfree : index.IsFreeBlock pool.network block.length block)
    (hadd : index.add block r.combined.requirements = .ok changed) :
    RegisterOutcome index spec r (.ok (block, changed))
  /-- No wider route matching the selector has room. -/
  | full {length n : Nat} {text : String} (hasks : r.Asks spec length)
    (hnone : ∀ pool ∈ index.query r.selector, pool.network.length < length →
      ∀ block, ¬ index.IsFreeBlock pool.network length block) :
    RegisterOutcome index spec r (.error (.exhausted text n))
  | refused {e : RegistryError} (hconflict : e.isConflict = false)
    (hexhausted : e.isExhausted = false) : RegisterOutcome index spec r (.error e)

/-- An invalid input is neither exhaustion nor a conflict, so nothing is promised about it. -/
theorem RegisterOutcome.of_invalidInput {e : RegistryError} (h : ∃ fault, e = .invalidInput fault) :
    RegisterOutcome index spec r (.error e) := by
  obtain ⟨fault, rfl⟩ := h
  exact .refused rfl rfl

/-- A free block can be inserted: a route that stood in its way would overlap it. -/
theorem IsFreeBlock.get?_eq_none {parent : Network} (h : index.IsFreeBlock parent length block)
    (hlt : parent.length < length) : index.routes.get? block = none := by
  rw [Option.eq_none_iff_forall_ne_some]
  intro labels hget
  have hcontains := isClear_iff.1 h.clear block (mem_networks_iff.2 ⟨labels, hget⟩)
    (Network.overlaps_of_contains block.contains_refl)
  have := Network.length_le_of_contains hcontains
  rw [h.length_eq] at this
  omega

/-- A block that is free in a wider network has no route, so it can be added. -/
theorem IsFreeBlock.exists_add {parent : Network} (h : index.IsFreeBlock parent length block)
    (hlt : parent.length < length) (labels : Labels) :
    ∃ changed, index.add block labels = .ok changed := by
  cases hadd : index.add block labels with
  | ok changed => exact ⟨changed, rfl⟩
  | error e =>
    obtain ⟨hmem, -⟩ := add_eq_error_iff.1 hadd
    rw [h.canonical, mem_networks_iff, h.get?_eq_none hlt] at hmem
    simp at hmem

/-- A claim owns no block of a length exactly if no route of that length has its labels. -/
theorem pickUnique_owned_eq_none_iff {labels : Selector} :
    Route.pickUnique ((index.owned labels).filter fun o => o.network.length == length) = none ↔
      ∀ n, index.routes.get? n = some labels.requirements → n.length ≠ length := by
  rw [Route.pickUnique_eq_none_iff, List.filter_eq_nil_iff]
  constructor
  · intro h n hget
    have := h ⟨n, labels.requirements⟩ (mem_owned_iff.2 ⟨hget, rfl⟩)
    simpa using this
  · intro h o ho
    obtain ⟨hget, hlabels⟩ := mem_owned_iff.1 ho
    rw [hlabels] at hget
    simpa using h o.network hget

/-- Inserting the chosen block cannot fail. -/
theorem insertChosen_outcome {answer : Except RegistryError Network} (hasks : r.Asks spec length)
    (hunowned : ∀ n, index.routes.get? n = some r.combined.requirements → n.length ≠ length)
    (h : ChoiceOutcome index (poolsFor (index.query r.selector) length) length answer) :
    RegisterOutcome index spec r (answer >>= fun block =>
      (index.add block r.combined.requirements).map fun changed => (block, changed)) := by
  cases h with
  | found hpool hfree =>
    obtain ⟨pool, hmem, rfl, hlt⟩ := mem_poolsFor_iff.1 hpool
    obtain ⟨changed, hadd⟩ := hfree.exists_add hlt r.combined.requirements
    obtain rfl := hfree.length_eq
    show RegisterOutcome index spec r ((index.add _ r.combined.requirements).map _)
    rw [hadd]
    exact .inserted hasks hunowned hmem hlt hfree hadd
  | full hnone =>
    exact .full hasks fun pool hpool hlt => hnone _ (mem_poolsFor_iff.2 ⟨pool, hpool, rfl, hlt⟩)
  | refused hconflict hexhausted => exact .refused hconflict hexhausted

/-- How a dynamic registration ends: the faults of its input come first, then the route that the claim owns,
then the choice among the pools, whose block is inserted. -/
theorem registerDynamic_outcome (index : RouteIndex) (scope : ObjectKey) (spec : ScopeSpec)
    (r : Registration) : RegisterOutcome index spec r (index.registerDynamic scope spec r) := by
  -- the checks of the input, in the order in which they are made
  cases hpurpose : r.purpose with
  | error e =>
    unfold registerDynamic
    rw [hpurpose]
    exact .of_invalidInput (Registration.requirement_eq_error hpurpose)
  | ok purpose =>
  cases hfamily : r.family with
  | error e =>
    unfold registerDynamic
    rw [hpurpose, hfamily]
    exact .of_invalidInput (Registration.family_eq_error hfamily)
  | ok family =>
  cases hpersisted : r.persistedNetwork with
  | error e =>
    unfold registerDynamic
    rw [hpurpose, hfamily, hpersisted]
    exact .of_invalidInput (Registration.persistedNetwork_eq_error hpersisted)
  | ok persisted =>
  rw [registerDynamic_eq hpurpose hfamily hpersisted]
  have hasks : ∀ length, spec.lengthFor purpose family = some length → r.Asks spec length :=
    fun length hlength => ⟨purpose, family, Registration.purpose_eq_ok_iff.1 hpurpose,
      Registration.family_eq_ok_iff.1 hfamily, hlength⟩
  split
  · exact .refused rfl rfl
  · split
    · exact .refused rfl rfl
    · rename_i length hlength
      split
      · rename_i o ho
        obtain ⟨hmem, hlen⟩ := List.mem_filter.1 (Route.mem_of_pickUnique ho)
        obtain ⟨hget, hlabels⟩ := mem_owned_iff.1 hmem
        rw [hlabels] at hget
        exact .owned (hasks _ (beq_iff_eq.1 hlen ▸ hlength)) hget
      · rename_i hnone
        split
        · exact .refused rfl rfl
        · exact insertChosen_outcome (hasks _ hlength) (pickUnique_owned_eq_none_iff.1 hnone)
            (chosen_outcome spec.strategy fun n hn =>
              Registration.isCanonical_of_persistedNetwork (hn ▸ hpersisted))

/-- A registration that names no network is a dynamic one. -/
theorem register_outcome (index : RouteIndex) (scope : ObjectKey) (spec : ScopeSpec)
    (hdynamic : r.network = none) :
    RegisterOutcome index spec r (index.register scope spec r) := by
  unfold register
  rw [hdynamic]
  exact registerDynamic_outcome index scope spec r

/-- What a registration answers has no host bits. -/
theorem RegisterOutcome.isCanonical (h : RegisterOutcome index spec r (.ok (block, changed))) :
    block.IsCanonical := by
  cases h with
  | owned _ hget => exact isCanonical_of_get? hget
  | inserted _ _ _ _ hfree _ => exact hfree.canonical

/-- The block is a route with exactly the labels of the claim. -/
theorem RegisterOutcome.get?_block (h : RegisterOutcome index spec r (.ok (block, changed))) :
    changed.routes.get? block = some r.combined.requirements := by
  cases h with
  | owned _ hget => exact hget
  | inserted _ _ _ _ hfree hadd => exact (get?_of_add hfree.canonical hadd).2.1

/-- A claim that names a network declares it with its own labels. -/
theorem register_of_network_eq_ok_iff {raw : String} (hnetwork : r.network = some raw) :
    index.register scope spec r = .ok (n, changed) ↔
      Network.parse raw = .ok n ∧ index.declare n r.combined.requirements = .ok changed := by
  unfold register registerExplicit
  rw [hnetwork]
  show (Network.parse raw >>= fun n' =>
    index.declare n' r.combined.requirements >>= fun index' => Except.ok (n', index')) = _ ↔ _
  rw [Except.bind_eq_ok_iff]
  constructor
  · rintro ⟨n', hparse, h⟩
    obtain ⟨index', hdeclare, h⟩ := Except.bind_eq_ok_iff.1 h
    cases h
    exact ⟨hparse, hdeclare⟩
  · rintro ⟨hparse, hdeclare⟩
    exact ⟨n, hparse, Except.bind_eq_ok_iff.2 ⟨changed, hdeclare, rfl⟩⟩

/-- A registration concerns the route of the network that it answers. -/
theorem get?_of_register (h : index.register scope spec r = .ok (n, changed)) :
    n.IsCanonical ∧ ∀ m, m ≠ n → changed.routes.get? m = index.routes.get? m := by
  cases hnetwork : r.network with
  | some raw =>
    obtain ⟨hparse, hdeclare⟩ := (register_of_network_eq_ok_iff hnetwork).1 h
    have hcanonical := Network.parse_isCanonical hparse
    exact ⟨hcanonical, (get?_of_declare hcanonical hdeclare).2⟩
  | none =>
    have houtcome := index.register_outcome scope spec hnetwork
    rw [h] at houtcome
    refine ⟨houtcome.isCanonical, ?_⟩
    cases houtcome with
    | owned _ _ => exact fun _ _ => rfl
    | inserted _ _ _ _ hfree hadd => exact (get?_of_add hfree.canonical hadd).2.2

/-- A text that is no network is refused before the index is looked at. -/
theorem register_of_parse_error {raw : String} {e : RegistryError} (hnetwork : r.network = some raw)
    (hparse : Network.parse raw = .error e) : index.register scope spec r = .error e := by
  unfold register registerExplicit
  simp only [hnetwork, hparse]
  rfl

/-- When a claim owns nothing and the block that it held before is free in a wider matching route, it
gets that block back. -/
theorem registerDynamic_restores {pool : Route} (hasks : r.Asks spec block.length)
    (hpersisted : r.persistedNetwork = .ok (some block))
    (hunowned : ∀ n, index.routes.get? n = some r.combined.requirements → n.length ≠ block.length)
    (hpool : pool ∈ index.query r.selector) (hlt : pool.network.length < block.length)
    (hfree : index.IsFreeBlock pool.network block.length block)
    (hadd : index.add block r.combined.requirements = .ok changed) :
    index.registerDynamic scope spec r = .ok (block, changed) := by
  obtain ⟨purpose, family, hpurpose, hfamily, hlength⟩ := hasks
  have hmatch : (index.query r.selector).isEmpty = false := by
    rw [List.isEmpty_eq_false_iff_exists_mem]
    exact ⟨pool, hpool⟩
  have hmem : pool.network ∈ poolsFor (index.query r.selector) block.length :=
    mem_poolsFor_iff.2 ⟨pool, hpool, rfl, hlt⟩
  have hpools : (poolsFor (index.query r.selector) block.length).isEmpty = false := by
    rw [List.isEmpty_eq_false_iff_exists_mem]
    exact ⟨pool.network, hmem⟩
  have hcan : index.canRestore (poolsFor (index.query r.selector) block.length) block.length block
      = true :=
    canRestore_iff.2 ⟨rfl, pool.network, hmem, hfree.isFreeWithin hlt⟩
  rw [registerDynamic_eq (Registration.purpose_eq_ok_iff.2 hpurpose)
    (Registration.family_eq_ok_iff.2 hfamily) hpersisted, hmatch]
  simp only [Bool.false_eq_true, if_false, hlength, pickUnique_owned_eq_none_iff.2 hunowned, hpools,
    chosen_of_canRestore hcan]
  show (index.add block r.combined.requirements).map _ = _
  rw [hadd]
  rfl

end RouteIndex

end AddressRegistry
