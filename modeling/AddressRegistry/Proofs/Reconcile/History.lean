import AddressRegistry.Proofs.Allocation.Registering
import AddressRegistry.Proofs.Reconcile.Pass

/-!
# Histories

Clients create, update and delete objects, and the controller makes passes over them, in any order
(`Action`, `Controller.run`). A request that the store refuses changes nothing; one that it grants changes
one object (`Store.ServeOutcome`). On every history the store stays keyed (`Controller.Sound.run`), so a
pass always ends as `Controller.PassOutcome` says (`Controller.Sound.pass`).
-/

namespace AddressRegistry

/-- What clients ask of the store. -/
inductive Request where
  | create (o : Object)
  /-- Replace the specification of an object. -/
  | update (o : Object)
  | delete (id : ObjectId)

/-- What happens to a registry: requests of clients, and passes. -/
inductive Action where
  | request (q : Request)
  | reconcile (id : ObjectId)

namespace Store

/-- The store after a request; one that is refused changes nothing. -/
def serve (s : Store) : Request → Store
  | .create o => ((s.create o).map (·.2)).toOption.getD s
  | .update o => ((s.update o).map (·.2)).toOption.getD s
  | .delete id => (s.delete id).toOption.getD s

/-- The objects of a store after a request: at most one was written or removed. -/
inductive ServeOutcome (s : Store) : Request → SortedMap ObjectId Object → Prop
  | unchanged {q : Request} : ServeOutcome s q s.objects
  | created {o : Object} (hnew : s.get? o.id = none) :
    ServeOutcome s (.create o) (s.objects.insert o.id (created o))
  | updated {o stored copied : Object} (hget : s.get? o.id = some stored)
    (hcopy : stored.copySpec? o = some copied) :
    ServeOutcome s (.update o) (s.objects.insert o.id
      (copied.mapInfo fun m => { m with generation := m.generation + 1 }))
  | removed {id : ObjectId} : ServeOutcome s (.delete id) (s.objects.erase id)
  | condemned {id : ObjectId} {stored : Object} (hget : s.get? id = some stored) :
    ServeOutcome s (.delete id)
      (s.objects.insert id (stored.mapInfo fun m => { m with deletionRequested := true }))

/-- A request is granted in one of these ways, or refused and changes nothing. -/
theorem serve_outcome (s : Store) (q : Request) : s.ServeOutcome q (s.serve q).objects := by
  cases q with
  | create o =>
    dsimp only [serve]
    cases h : s.create o with
    | error e => exact .unchanged
    | ok answer =>
      obtain ⟨o', s'⟩ := answer
      obtain ⟨hnew, rfl, rfl⟩ := create_eq_ok_iff.1 h
      exact .created hnew
  | update o =>
    dsimp only [serve]
    cases h : s.update o with
    | error e => exact .unchanged
    | ok answer =>
      obtain ⟨o', s'⟩ := answer
      rcases update_eq_ok h with rfl | ⟨stored, copied, hget, hcopy, rfl, rfl⟩
      · exact .unchanged
      · exact .updated hget hcopy
  | delete id =>
    dsimp only [serve]
    cases h : s.delete id with
    | error e => exact .unchanged
    | ok s' =>
      rcases delete_eq_ok h with rfl | rfl | ⟨stored, hget, rfl⟩
      · exact .unchanged
      · exact .removed
      · exact .condemned hget

/-- A property of the object under each kind and key that holds of one more object. -/
theorem forall_get?_insert {s : Store} {objects : SortedMap ObjectId Object} {id : ObjectId}
    {o : Object} {P : ObjectId → Object → Prop} (hobjects : objects = s.objects.insert id o)
    (h : ∀ id' o', id' ≠ id → s.get? id' = some o' → P id' o') (hnew : P id o) :
    ∀ id' o', objects.get? id' = some o' → P id' o' := by
  intro id' o' hget
  rw [hobjects] at hget
  by_cases hid : id' = id
  · rw [hid, SortedMap.get?_insert_self] at hget
    cases hget
    exact hid ▸ hnew
  · rw [SortedMap.get?_insert_of_ne _ hid] at hget
    exact h id' o' hid hget

/-- A property of the object under each kind and key that holds of one object less. -/
theorem forall_get?_erase {s : Store} {objects : SortedMap ObjectId Object} {id : ObjectId}
    {P : ObjectId → Object → Prop} (hobjects : objects = s.objects.erase id)
    (h : ∀ id' o', id' ≠ id → s.get? id' = some o' → P id' o') :
    ∀ id' o', objects.get? id' = some o' → P id' o' := by
  intro id' o' hget
  rw [hobjects] at hget
  by_cases hid : id' = id
  · rw [hid, SortedMap.get?_erase_self] at hget
    cases hget
  · rw [SortedMap.get?_erase_of_ne hid] at hget
    exact h id' o' hid hget

/-- A property of every object under its kind and key holds after a request if the object that the request
is about has it then. -/
theorem forall_get?_serve {s : Store} {P : ObjectId → Object → Prop} (q : Request)
    (h : ∀ id o, s.get? id = some o → P id o) (hcreate : ∀ o, q = .create o → P o.id (created o))
    (hupdate : ∀ o stored copied, q = .update o → s.get? o.id = some stored →
      stored.copySpec? o = some copied →
        P o.id (copied.mapInfo fun m => { m with generation := m.generation + 1 }))
    (hdelete : ∀ id stored, s.get? id = some stored →
      P id (stored.mapInfo fun m => { m with deletionRequested := true })) :
    ∀ id o, (s.serve q).get? id = some o → P id o := by
  have hothers : ∀ {id : ObjectId} id' o', id' ≠ id → s.get? id' = some o' → P id' o' :=
    fun id' o' _ => h id' o'
  have houtcome := s.serve_outcome q
  unfold get?
  generalize (s.serve q).objects = objects at *
  cases houtcome with
  | unchanged => exact h
  | created _ => exact forall_get?_insert rfl hothers (hcreate _ rfl)
  | updated hget hcopy => exact forall_get?_insert rfl hothers (hupdate _ _ _ rfl hget hcopy)
  | removed => exact forall_get?_erase rfl hothers
  | condemned hget => exact forall_get?_insert rfl hothers (hdelete _ _ hget)

end Store

namespace Controller

variable {c : Controller}

/-- One action. -/
def act (c : Controller) : Action → Controller
  | .request q => { c with access := { c.access with store := c.access.store.serve q } }
  | .reconcile id => (c.reconcile id).2

/-- One action after the other. -/
def run (c : Controller) (actions : List Action) : Controller := actions.foldl act c

/-- A controller with nothing in its store and no fault rules. -/
def fresh (policy : RetryPolicy) : Controller := .start ⟨.empty, []⟩ policy

/-- A history with one more action. -/
theorem run_concat (c : Controller) (actions : List Action) (a : Action) :
    c.run (actions ++ [a]) = (c.run actions).act a := by
  unfold run
  rw [List.foldl_append]
  rfl

/-- There are no fault rules, and every object stands under its own kind and key. -/
structure Sound (c : Controller) : Prop where
  rules : c.access.rules = []
  keyed : c.access.store.Keyed

/-- A fresh controller has nothing in its store. -/
theorem sound_fresh (policy : RetryPolicy) : (fresh policy).Sound :=
  ⟨rfl, fun _ _ h => nomatch h.symm.trans (SortedMap.get?_empty _)⟩

/-- A pass over an object of a sound controller. -/
theorem Sound.pass (h : c.Sound) (id : ObjectId) :
    ∃ outcome c', c.reconcile id = (.ok outcome, c') ∧ c'.access.rules = [] ∧
      c.PassOutcome id outcome.ready c'.access.store.objects c'.indexes :=
  reconcile_outcome h.rules h.keyed id

/-- A pass concerns the object under its kind and key alone. -/
theorem Sound.get?_reconcile_of_ne (h : c.Sound) {id id' : ObjectId} (hne : id' ≠ id) :
    (c.reconcile id).2.access.store.get? id' = c.access.store.get? id' := by
  obtain ⟨outcome, c', hpass, -, houtcome⟩ := h.pass id
  rw [hpass]
  unfold Store.get?
  dsimp only
  generalize c'.access.store.objects = objects', c'.indexes = indexes', outcome.ready = ready at *
  cases houtcome with
  | absent _ => rfl
  | kept _ _ _ _ _ => exact SortedMap.get?_insert_of_ne _ hne
  | obtained _ _ _ _ _ _ _ => exact SortedMap.get?_insert_of_ne _ hne
  | undone _ _ hobjects _ =>
    rcases hobjects with rfl | ⟨-, rfl⟩
    · exact SortedMap.get?_erase_of_ne hne
    · exact SortedMap.get?_insert_of_ne _ hne

/-- A pass that cannot fetch its object has done nothing. -/
theorem reconcile_of_error {id : ObjectId} {f : Failure} (h : c.access.fetch id.kind id.key = .error f) :
    c.reconcile id = (.error f, c) := by
  unfold reconcile
  rw [h]

/-- A pass over an object that is not there forgets its retry counter, and that is all. -/
theorem reconcile_of_none {id : ObjectId} (h : c.access.fetch id.kind id.key = .ok none) :
    c.reconcile id
      = (.ok .removed, { c with ladder := c.ladder.forget (id.kind.retryName id.key) }) := by
  unfold reconcile
  rw [h]

/-- A pass over an object that is to be deleted finalizes it. -/
theorem reconcile_of_deleted {id : ObjectId} {o : Object}
    (h : c.access.fetch id.kind id.key = .ok (some o)) (hdeletion : o.info.deletionRequested = true) :
    c.reconcile id = c.finalize id o := by
  unfold reconcile
  rw [h]
  exact if_pos hdeletion

/-- A pass over an object that is to stay maintains it. -/
theorem reconcile_of_live {id : ObjectId} {o : Object}
    (h : c.access.fetch id.kind id.key = .ok (some o)) (hdeletion : o.info.deletionRequested = false) :
    c.reconcile id = c.maintain id o := by
  unfold reconcile
  rw [h]
  exact if_neg (Bool.eq_false_iff.1 hdeletion)

/-- In a sound controller fetching is looking up. -/
theorem Sound.fetch_eq {id : ObjectId} (h : c.Sound) :
    c.access.fetch id.kind id.key = .ok (c.access.store.get? id) :=
  Access.fetch_of_keyed h.rules h.keyed id

/-- A sound controller forgets the retry counter of an object that is not there. -/
theorem Sound.reconcile_of_absent {id : ObjectId} (h : c.Sound)
    (hget : c.access.store.get? id = none) :
    c.reconcile id
      = (.ok .removed, { c with ladder := c.ladder.forget (id.kind.retryName id.key) }) :=
  reconcile_of_none (h.fetch_eq.trans (congrArg Except.ok hget))

/-- In a sound controller an object that is to be deleted is finalized. -/
theorem Sound.reconcile_of_deleted {id : ObjectId} {o : Object} (h : c.Sound)
    (hget : c.access.store.get? id = some o) (hdeletion : o.info.deletionRequested = true) :
    c.reconcile id = c.finalize id o :=
  Controller.reconcile_of_deleted (h.fetch_eq.trans (congrArg Except.ok hget)) hdeletion

/-- In a sound controller an object that is to stay is maintained. -/
theorem Sound.reconcile_of_live {id : ObjectId} {o : Object} (h : c.Sound)
    (hget : c.access.store.get? id = some o) (hdeletion : o.info.deletionRequested = false) :
    c.reconcile id = c.maintain id o :=
  Controller.reconcile_of_live (h.fetch_eq.trans (congrArg Except.ok hget)) hdeletion

/-- The controller after a pass. -/
theorem Sound.act_reconcile (h : c.Sound) (id : ObjectId) :
    (c.act (.reconcile id)).access.rules = [] ∧
      ∃ ready, c.PassOutcome id ready (c.act (.reconcile id)).access.store.objects
        (c.act (.reconcile id)).indexes := by
  obtain ⟨outcome, c', hpass, hrules, houtcome⟩ := h.pass id
  have hact : c.act (.reconcile id) = c' := congrArg Prod.snd hpass
  rw [hact]
  exact ⟨hrules, outcome.ready, houtcome⟩

/-- A property of every object under its kind and key holds after a pass if the object of the pass keeps
it when it is tended and when finalizers are taken off it. -/
theorem PassOutcome.forall_get? {id : ObjectId} {ready : Bool} {objects' : SortedMap ObjectId Object}
    {indexes' : ScopeIndexes} {P : ObjectId → Object → Prop}
    (houtcome : c.PassOutcome id ready objects' indexes')
    (h : ∀ id o, c.access.store.get? id = some o → P id o)
    (htend : ∀ o o', P id o → o.Tended o' → P id o')
    (htake : ∀ o finalizers, P id o → P id (o.mapInfo fun m => { m with finalizers })) :
    ∀ id' o', objects'.get? id' = some o' → P id' o' := by
  have hothers : ∀ id' o', id' ≠ id → c.access.store.get? id' = some o' → P id' o' :=
    fun id' o' _ => h id' o'
  cases houtcome with
  | absent _ => exact h
  | kept hget htended _ _ _ =>
    exact Store.forall_get?_insert rfl hothers (htend _ _ (h _ _ hget) htended)
  | obtained hget htended _ _ _ _ _ =>
    exact Store.forall_get?_insert rfl hothers (htend _ _ (h _ _ hget) htended)
  | undone hget _ hobjects _ =>
    rcases hobjects with hobjects | ⟨-, hobjects⟩
    · exact Store.forall_get?_erase hobjects hothers
    · exact Store.forall_get?_insert hobjects hothers (htake _ _ (h _ _ hget))

/-- Requests and passes keep a controller sound. -/
theorem Sound.act (h : c.Sound) (a : Action) : (c.act a).Sound := by
  cases a with
  | request q =>
    refine ⟨h.rules, Store.forall_get?_serve q h.keyed (fun o _ => Store.id_created o) ?_ ?_⟩
    · intro o stored copied _ hget hcopy
      exact (Object.id_mapInfo _ _ rfl rfl).trans
        ((Object.id_copySpec? hcopy).trans (h.keyed _ _ hget))
    · intro id stored hget
      exact (Object.id_mapInfo _ _ rfl rfl).trans (h.keyed _ _ hget)
  | reconcile id =>
    obtain ⟨hrules, ready, houtcome⟩ := h.act_reconcile id
    refine ⟨hrules, houtcome.forall_get? h.keyed ?_ ?_⟩
    · exact fun o o' hid htended => htended.id_eq.trans hid
    · exact fun o finalizers hid => (Object.id_mapInfo _ _ rfl rfl).trans hid

/-- A controller stays sound on every history. -/
theorem Sound.run (h : c.Sound) (actions : List Action) : (c.run actions).Sound := by
  induction actions generalizing c with
  | nil => exact h
  | cons a rest ih => exact ih (h.act a)

/-! ## Properties along a history -/

section

variable {P : Controller → Action → Prop} {actions actions' : List Action}

/-- Every action of a history has a property, each in the state in which it happens. -/
def Along (P : Controller → Action → Prop) : Controller → List Action → Prop
  | _, [] => True
  | c, a :: rest => P c a ∧ Along P (c.act a) rest

instance decidableAlong [h : ∀ c a, Decidable (P c a)] :
    (c : Controller) → (actions : List Action) → Decidable (Along P c actions)
  | _, [] => isTrue trivial
  | c, a :: rest =>
    have := decidableAlong (c.act a) rest
    inferInstanceAs (Decidable (P c a ∧ Along P (c.act a) rest))

/-- A property along a history in two parts is one along each of them, the second from where the first
leads. -/
theorem along_append :
    Along P c (actions ++ actions') ↔ Along P c actions ∧ Along P (c.run actions) actions' := by
  induction actions generalizing c with
  | nil => exact (and_iff_right trivial).symm
  | cons a rest ih =>
    show P c a ∧ Along P (c.act a) (rest ++ actions') ↔ _
    rw [ih, ← and_assoc]
    rfl

/-- Two properties along one history hold together along it. -/
theorem Along.and {Q : Controller → Action → Prop} (hP : Along P c actions)
    (hQ : Along Q c actions) : Along (fun c a => P c a ∧ Q c a) c actions := by
  induction actions generalizing c with
  | nil => exact trivial
  | cons a rest ih => exact ⟨⟨hP.1, hQ.1⟩, ih hP.2 hQ.2⟩

/-- What every action with the property keeps holds at the end. -/
theorem Along.invariant {Inv : Controller → Prop} (halong : Along P c actions)
    (hstep : ∀ c a, Inv c → P c a → Inv (c.act a)) (h : Inv c) : Inv (c.run actions) := by
  induction actions generalizing c with
  | nil => exact h
  | cons a rest ih => exact ih halong.2 (hstep c a h halong.1)

end

/-- A controller that some history leads to. -/
def Reachable (c : Controller) : Prop := ∃ policy actions, (fresh policy).run actions = c

/-- What a history leads to from a fresh controller is sound. -/
theorem Reachable.sound (h : c.Reachable) : c.Sound := by
  obtain ⟨policy, actions, rfl⟩ := h
  exact (sound_fresh policy).run actions

end Controller

/-! ## A sample registry

A tenant and the sample scope, both ready. -/

namespace Lab

def policy : RetryPolicy := ⟨10, 1000, 60000, 5⟩

def opening : List Action :=
  [.request (.create (.newTenant "default" "acme" .fresh)),
    .request (.create (.newScope Sample.key.space Sample.key.name Sample.spec)),
    .reconcile ⟨.tenant, ⟨"default", "acme"⟩⟩, .reconcile ⟨.scope, Sample.key⟩]

/-- The registry after some more actions. -/
def after (actions : List Action) : Controller :=
  (Controller.fresh policy).run (opening ++ actions)

/-- The registry of the sample comes about by a history. -/
theorem after_reachable (actions : List Action) : (after actions).Reachable := ⟨policy, _, rfl⟩

def tenantId : ObjectId := ⟨.tenant, ⟨"default", "acme"⟩⟩

def scopeId : ObjectId := ⟨.scope, Sample.key⟩

def poolId : ObjectId := ⟨.pool, ⟨"default", "acme.lab.pool"⟩⟩

/-- A pool of four loopback addresses. -/
def pool : Object :=
  .newPool "default" "acme.lab.pool"
    ⟨"10.0.0.0/30", true, .ofList [(Labels.purposeKey, "loopback")], none⟩

def edgeId : ObjectId := ⟨.claim, ⟨"default", "acme.lab.edge"⟩⟩

def coreId : ObjectId := ⟨.claim, ⟨"default", "acme.lab.core"⟩⟩

def site (name : String) : Labels := .ofList [("site", name)]

/-- A claim on a network that it names. -/
def explicit (id : ObjectId) (network : String) (sourceTag : Labels) : Object :=
  .newClaim id.key.space id.key.name ⟨some network, .empty, sourceTag⟩

/-- A claim on some loopback address. -/
def dynamic (id : ObjectId) (sourceTag : Labels) : Object :=
  .newClaim id.key.space id.key.name
    ⟨none, .ofList [(Labels.purposeKey, "loopback"), (Labels.familyKey, "ipv4")], sourceTag⟩

/-- A pool is ready, and a claim waits for an address. -/
def allocating : List Action :=
  [.request (.create pool), .reconcile poolId, .request (.create (dynamic edgeId (site "west")))]

/-- The network `10.0.0.1/32`. -/
def address : Network := ⟨.ipv4, 0x0a000001, 32, by decide, by decide⟩

end Lab

end AddressRegistry
