import AddressRegistry.Proofs.InPlace
import AddressRegistry.Proofs.Route.Contents
import Mathlib.Logic.Function.Basic

/-!
# Runs of an index

Whatever is inserted into an index and removed from it, the index is the finite map that binds the
canonical form of a network when an insertion finds it free and takes the binding away when a removal
finds it (`Bindings.obey`): it gives the same answers, failures included, and lists the bindings by family,
address and length (`RouteTable.run_follows`).

`RouteIndex` keeps labels by canonical network, so its type leaves no choice of what a key may be. A table
in place keeps whole routes under any networks (`RouteTable`): a finished route is put under the network that
it carries, while a removal and a look-up clear the bits of the network that they are asked for. That both
mean the same key is an invariant of its runs, since the table comes to what the index says
(`RouteIndex.table_obey`). A removal takes the binding away before it knows whether there was one.
-/

namespace AddressRegistry

/-! ## The order of networks -/

/-- IPv4 before IPv6, then the lower address, then the shorter length. -/
def Network.Precedes (m n : Network) : Prop :=
  m.family = .ipv4 ∧ n.family = .ipv6 ∨
    m.family = n.family ∧ (m.address < n.address ∨ m.address = n.address ∧ m.length < n.length)

/-- IPv4 sorts before IPv6. -/
theorem Family.compare_eq_lt_iff {f g : Family} : compare f g = .lt ↔ f = .ipv4 ∧ g = .ipv6 := by
  cases f <;> cases g <;> decide

/-- The order of a listing is the order by family, address and length. -/
theorem Network.compare_eq_lt_iff {m n : Network} : compare m n = .lt ↔ m.Precedes n := by
  show compareByPlace m n = .lt ↔ _
  simp only [compareByPlace, compareLex, Ordering.then_eq_lt, compareOn, Family.compare_eq_lt_iff,
    Std.compare_eq_iff_eq, Nat.compare_eq_lt, Precedes]

/-! ## Moves and what answers them -/

/-- An insertion or a removal, of a network in any spelling. -/
inductive RouteMove where
  | add (network : Network) (labels : Labels)
  | delete (network : Network)
deriving DecidableEq

/-- What a move is answered: a removal answers the route that was there. -/
abbrev RouteAnswer := Except RegistryError (Option Route)

namespace RouteMove

/-- Make one move after the other, failed ones too, and collect the answers. -/
def answering {σ : Type} (step : σ → RouteMove → RouteAnswer × σ) :
    σ → List RouteMove → List RouteAnswer × σ
  | s, [] => ([], s)
  | s, m :: moves =>
    ((step s m).1 :: (answering step (step s m).2 moves).1, (answering step (step s m).2 moves).2)

/-- Where a view of the state answers every move as the state does, it answers every run so. -/
theorem answering_of_view {σ τ : Type} {step : σ → RouteMove → RouteAnswer × σ}
    {step' : τ → RouteMove → RouteAnswer × τ} {view : σ → τ}
    (h : ∀ s m, step' (view s) m = ((step s m).1, view (step s m).2)) (s : σ) (moves : List RouteMove) :
    answering step' (view s) moves = ((answering step s moves).1, view (answering step s moves).2) := by
  induction moves generalizing s with
  | nil => rfl
  | cons m moves ih =>
    unfold answering
    rw [h, ih]

end RouteMove

/-! ## The index -/

namespace RouteIndex

variable {index : RouteIndex} {n : Network} {labels : Labels}

/-- Make a move. -/
def perform (index : RouteIndex) : RouteMove → Except RegistryError (Option Route × RouteIndex)
  | .add n labels => (index.add n labels).map fun index' => (none, index')
  | .delete n => (index.delete n).map fun answer => (some answer.1, answer.2)

/-- The answer to a move, and the index after it; a failed move changes nothing. -/
def obey (index : RouteIndex) (m : RouteMove) : RouteAnswer × RouteIndex :=
  match index.perform m with
  | .ok answer => (.ok answer.1, answer.2)
  | .error e => (.error e, index)

/-- A refused move leaves the index as it was. -/
theorem eq_of_obey_error {m : RouteMove} {e : RegistryError} (h : (index.obey m).1 = .error e) :
    (index.obey m).2 = index := by
  unfold obey at h ⊢
  split at h
  · cases h
  · rfl

/-- The answers to a run, and the index after it. -/
def run : RouteIndex → List RouteMove → List RouteAnswer × RouteIndex := RouteMove.answering obey

/-- An addition at a free network binds it under its canonical form. -/
theorem obey_add_of_none (labels : Labels) (h : index.routes.get? n.truncate = none) :
    ∃ index' : RouteIndex, index'.routes = index.routes.insert n.truncate labels ∧
      index.obey (.add n labels) = (.ok none, index') := by
  cases hadd : index.add n labels with
  | error e =>
    obtain ⟨hmem, -⟩ := add_eq_error_iff.1 hadd
    obtain ⟨labels', hsome⟩ := mem_networks_iff.1 hmem
    rw [h] at hsome
    cases hsome
  | ok index' =>
    refine ⟨index', (add_eq_ok_iff.1 hadd).2, ?_⟩
    rw [obey, perform, hadd]
    rfl

/-- An addition at a taken network is refused with that network, whatever the labels are. -/
theorem obey_add_of_some (labels : Labels) {labels' : Labels} (h : index.routes.get? n.truncate = some labels') :
    index.obey (.add n labels) = (.error (.conflict (.route n.truncate)), index) := by
  have hadd : index.add n labels = .error (.conflict (.route n.truncate)) :=
    add_eq_error_iff.2 ⟨mem_networks_iff.2 ⟨labels', h⟩, rfl⟩
  rw [obey, perform, hadd]
  rfl

/-- A removal of a bound network answers its route and takes the binding away. -/
theorem obey_delete_of_some (h : index.routes.get? n.truncate = some labels) :
    ∃ index' : RouteIndex, index'.routes = index.routes.erase n.truncate ∧
      index.obey (.delete n) = (.ok (some ⟨n.truncate, labels⟩), index') := by
  obtain ⟨index', hroutes⟩ := index.exists_erase n.truncate
  have hdelete : index.delete n = .ok (⟨n.truncate, labels⟩, index') := by
    unfold delete
    rw [h]
    exact congrArg Except.ok (Prod.ext rfl (ext_routes hroutes.symm))
  refine ⟨index', hroutes, ?_⟩
  rw [obey, perform, hdelete]
  rfl

/-- A removal of a network that is not bound is refused with the network as it was spelt. -/
theorem obey_delete_of_none (h : index.routes.get? n.truncate = none) :
    index.obey (.delete n) = (.error (.notFound (.route n)), index) := by
  have hdelete : index.delete n = .error (.notFound (.route n)) := by
    unfold delete
    rw [h]
  rw [obey, perform, hdelete]
  rfl

end RouteIndex

/-! ## The finite map -/

/-- Which labels a network is bound to. -/
abbrev Bindings := Network → Option Labels

namespace Bindings

/-- No network is bound. -/
def empty : Bindings := fun _ => none

/-- Bind a canonical network that is free. -/
def add (b : Bindings) (n : Network) (labels : Labels) : RouteAnswer × Bindings :=
  match b n.truncate with
  | none => (.ok none, Function.update b n.truncate (some labels))
  | some _ => (.error (.conflict (.route n.truncate)), b)

/-- Take the binding of a canonical network away when there is one. -/
def delete (b : Bindings) (n : Network) : RouteAnswer × Bindings :=
  match b n.truncate with
  | some labels => (.ok (some ⟨n.truncate, labels⟩), Function.update b n.truncate none)
  | none => (.error (.notFound (.route n)), b)

/-- The answer to a move, and the map after it. -/
def obey (b : Bindings) : RouteMove → RouteAnswer × Bindings
  | .add n labels => b.add n labels
  | .delete n => b.delete n

/-- The answers to a run, and the map after it. -/
def run : Bindings → List RouteMove → List RouteAnswer × Bindings := RouteMove.answering obey

/-- An update of the view with a binding is the view after an insertion. -/
theorem update_some (m : SortedMap Network Labels) (n : Network) (labels : Labels) :
    Function.update m.get? n (some labels) = (m.insert n labels).get? := by
  funext k
  rw [Function.update_apply]
  split
  · rename_i hk
    rw [hk, SortedMap.get?_insert_self]
  · rename_i hk
    rw [SortedMap.get?_insert_of_ne labels hk]

/-- An update of the view with nothing is the view after a removal. -/
theorem update_none (m : SortedMap Network Labels) (n : Network) :
    Function.update m.get? n none = (m.erase n).get? := by
  funext k
  rw [Function.update_apply]
  split
  · rename_i hk
    rw [hk, SortedMap.get?_erase_self]
  · rename_i hk
    rw [SortedMap.get?_erase_of_ne hk]

end Bindings

namespace RouteIndex

/-- The bindings that an index holds. -/
def bindings (index : RouteIndex) : Bindings := index.routes.get?

/-- The finite map answers a move as the index does. -/
theorem bindings_obey (index : RouteIndex) (m : RouteMove) :
    index.bindings.obey m = ((index.obey m).1, (index.obey m).2.bindings) := by
  cases m with
  | add n labels =>
    show Bindings.add index.routes.get? n labels = _
    unfold Bindings.add
    cases hget : index.routes.get? n.truncate with
    | none =>
      obtain ⟨index', hroutes, hobey⟩ := obey_add_of_none labels hget
      rw [hobey, bindings, hroutes, ← Bindings.update_some]
    | some labels' =>
      rw [obey_add_of_some labels hget]
      rfl
  | delete n =>
    show Bindings.delete index.routes.get? n = _
    unfold Bindings.delete
    cases hget : index.routes.get? n.truncate with
    | none =>
      rw [obey_delete_of_none hget]
      rfl
    | some labels =>
      obtain ⟨index', hroutes, hobey⟩ := obey_delete_of_some hget
      rw [hobey, bindings, hroutes, ← Bindings.update_none]

/-- A run of an index is a run of its bindings: the answers agree one by one, and so do the views at the
end. -/
theorem bindings_run (index : RouteIndex) (moves : List RouteMove) :
    index.bindings.run moves = ((index.run moves).1, (index.run moves).2.bindings) :=
  RouteMove.answering_of_view bindings_obey index moves

end RouteIndex

/-! ## The table in place -/

/-- Whole routes by network. Nothing in the type ties a route to its key. -/
abbrev RouteTable := SortedMap Network Route

namespace RouteTable

/-- Put a finished route under the network that it carries, unless that is taken. -/
def addInPlace (route : Route) : EStateM RegistryError RouteTable Unit := do
  let table ← get
  if table.contains route.network then
    throw (.conflict (.route route.network))
  modify fun table => table.insert route.network route

/-- Take a route away, and then see whether there was one. -/
def deleteInPlace (n : Network) : EStateM RegistryError RouteTable Route := do
  let found := (← get).get? n.truncate
  modify fun table => table.erase n.truncate
  match found with
  | some route => return route
  | none => throw (.notFound (.route n))

/-- The route of a network. -/
def find? (table : RouteTable) (n : Network) : Option Route := table.get? n.truncate

/-- Make a move in place. The bits of a network are cleared when its route is made. -/
def performInPlace : RouteMove → EStateM RegistryError RouteTable (Option Route)
  | .add n labels => do
    addInPlace ⟨n.truncate, labels⟩
    return none
  | .delete n => do
    let route ← deleteInPlace n
    return some route

/-- The answer to a move, and what it leaves, whatever it ends in. -/
def obey (table : RouteTable) (m : RouteMove) : RouteAnswer × RouteTable :=
  match performInPlace m table with
  | .ok answer table' => (.ok answer, table')
  | .error e table' => (.error e, table')

/-- An addition in place, step by step. -/
theorem addInPlace_eq (table : RouteTable) (route : Route) :
    addInPlace route table = match table.get? route.network with
      | some _ => .error (.conflict (.route route.network)) table
      | none => .ok () (table.insert route.network route) := by
  show (if table.contains route.network then _ else _ : EStateM RegistryError RouteTable Unit) table = _
  unfold SortedMap.contains
  cases table.get? route.network <;> rfl

/-- A removal in place, step by step. The binding is gone before the answer is known; without a binding the
erasure changes nothing. -/
theorem deleteInPlace_eq (table : RouteTable) (n : Network) :
    deleteInPlace n table = match table.get? n.truncate with
      | some route => .ok route (table.erase n.truncate)
      | none => .error (.notFound (.route n)) (table.erase n.truncate) := by
  show (match table.get? n.truncate with
    | some route => pure route
    | none => throw (.notFound (.route n)) : EStateM RegistryError RouteTable Route)
      (table.erase n.truncate) = _
  cases table.get? n.truncate <;> rfl

/-- An addition to a table, with its answer. -/
theorem obey_add (table : RouteTable) (n : Network) (labels : Labels) :
    obey table (.add n labels) = match table.get? n.truncate with
      | some _ => (.error (.conflict (.route n.truncate)), table)
      | none => (.ok none, table.insert n.truncate ⟨n.truncate, labels⟩) := by
  have hperform : performInPlace (.add n labels) table =
      EStateM.bind (addInPlace ⟨n.truncate, labels⟩) (fun _ => pure none) table := rfl
  unfold obey
  rw [hperform, EStateM.bind, addInPlace_eq]
  cases table.get? n.truncate <;> rfl

/-- A removal from a table, with its answer. -/
theorem obey_delete (table : RouteTable) (n : Network) :
    obey table (.delete n) = match table.get? n.truncate with
      | some route => (.ok (some route), table.erase n.truncate)
      | none => (.error (.notFound (.route n)), table.erase n.truncate) := by
  have hperform : performInPlace (.delete n) table =
      EStateM.bind (deleteInPlace n) (fun route => pure (some route)) table := rfl
  unfold obey
  rw [hperform, EStateM.bind, deleteInPlace_eq]
  cases table.get? n.truncate <;> rfl

/-- The answers to a run, and the table after it. -/
def run : RouteTable → List RouteMove → List RouteAnswer × RouteTable := RouteMove.answering obey

end RouteTable

namespace RouteIndex

/-- The table of an index: each route under its own network. -/
def table (index : RouteIndex) : RouteTable :=
  ⟨index.routes.entries.map fun e => (e.1, ⟨e.1, e.2⟩), List.pairwise_map.2 index.routes.increasing⟩

/-- The table of an index keeps each route under its own network. -/
theorem get?_table (index : RouteIndex) (n : Network) :
    index.table.get? n = (index.routes.get? n).map (Route.mk n) := by
  apply Option.ext
  intro route
  rw [← SortedMap.mem_entries_iff, Option.map_eq_some_iff]
  constructor
  · intro h
    obtain ⟨e, he, heq⟩ := List.mem_map.1 h
    cases heq
    exact ⟨e.2, SortedMap.mem_entries_iff.1 he, rfl⟩
  · rintro ⟨labels, h, rfl⟩
    exact List.mem_map.2 ⟨(n, labels), SortedMap.mem_entries_iff.2 h, rfl⟩

/-- Inserting a route into the table of an index is inserting its labels into the index. -/
theorem table_insert {index index' : RouteIndex} {n : Network} {labels : Labels}
    (h : index'.routes = index.routes.insert n labels) :
    index.table.insert n ⟨n, labels⟩ = index'.table := by
  apply SortedMap.ext_get?
  intro k
  rw [get?_table, h]
  by_cases hk : k = n
  · rw [hk, SortedMap.get?_insert_self, SortedMap.get?_insert_self, Option.map_some]
  · rw [SortedMap.get?_insert_of_ne _ hk, SortedMap.get?_insert_of_ne _ hk, get?_table]

/-- Erasing a network from the table of an index is erasing it from the index. -/
theorem table_erase {index index' : RouteIndex} {n : Network} (h : index'.routes = index.routes.erase n) :
    index.table.erase n = index'.table := by
  apply SortedMap.ext_get?
  intro k
  rw [get?_table, h]
  by_cases hk : k = n
  · rw [hk, SortedMap.get?_erase_self, SortedMap.get?_erase_self, Option.map_none]
  · rw [SortedMap.get?_erase_of_ne hk, SortedMap.get?_erase_of_ne hk, get?_table]

/-- The table comes to what the index says; a move that fails leaves it as it was. -/
theorem table_obey (index : RouteIndex) (m : RouteMove) :
    RouteTable.obey index.table m = ((index.obey m).1, (index.obey m).2.table) := by
  cases m with
  | add n labels =>
    rw [RouteTable.obey_add, get?_table]
    cases hget : index.routes.get? n.truncate with
    | none =>
      obtain ⟨index', hroutes, hobey⟩ := obey_add_of_none labels hget
      rw [hobey, ← table_insert hroutes]
      rfl
    | some labels' =>
      rw [obey_add_of_some labels hget]
      rfl
  | delete n =>
    rw [RouteTable.obey_delete, get?_table]
    cases hget : index.routes.get? n.truncate with
    | none =>
      rw [obey_delete_of_none hget, table_erase (SortedMap.erase_of_get? hget).symm]
      rfl
    | some labels =>
      obtain ⟨index', hroutes, hobey⟩ := obey_delete_of_some hget
      rw [hobey, ← table_erase hroutes]
      rfl

/-- A run of the table of an index stays the table of an index, the one that the same run of the index comes
to. This is the invariant by which a key and the network of its route mean the same. -/
theorem table_run (index : RouteIndex) (moves : List RouteMove) :
    RouteTable.run index.table moves = ((index.run moves).1, (index.run moves).2.table) :=
  RouteMove.answering_of_view table_obey index moves

/-- A look-up in the table of an index is the look-up in the index. -/
theorem find?_table (index : RouteIndex) (n : Network) : RouteTable.find? index.table n = index.get? n :=
  index.get?_table n.truncate

end RouteIndex

/-! ## What a run leaves -/

namespace RouteTable

/-- The table is a finite map with its entries in order. -/
structure Holds (table : RouteTable) (b : Bindings) : Prop where
  ordered : table.values.Pairwise fun r r' => r.network.Precedes r'.network
  keyed : ∀ e ∈ table.entries, e.1.IsCanonical ∧ e.2.network = e.1
  bound : ∀ n labels, (n, ⟨n, labels⟩) ∈ table.entries ↔ b n = some labels
  found : ∀ n, find? table n = (b n.truncate).map (Route.mk n.truncate)

/-- Two spellings of one network are one network. Only the words of a failed removal tell them apart. -/
structure Alike (table : RouteTable) (n n' : Network) : Prop where
  found : find? table n = find? table n'
  added : ∀ labels, obey table (.add n labels) = obey table (.add n' labels)
  left : (obey table (.delete n)).2 = (obey table (.delete n')).2
  removed : (obey table (.delete n)).1.toOption = (obey table (.delete n')).1.toOption

/-- Two spellings of one network are alike for a table: every call clears the bits first or is given a
finished route. -/
theorem alike (table : RouteTable) {n n' : Network} (h : n.truncate = n'.truncate) : Alike table n n' where
  found := congrArg table.get? h
  added labels := by rw [obey_add, obey_add, h]
  left := by
    rw [obey_delete, obey_delete, h]
    cases table.get? n'.truncate <;> rfl
  removed := by
    rw [obey_delete, obey_delete, h]
    cases table.get? n'.truncate <;> rfl

/-- The table of an index holds that index's bindings, in order. -/
theorem holds_table (index : RouteIndex) : Holds index.table index.bindings where
  ordered := by
    unfold SortedMap.values RouteIndex.table
    rw [List.map_map]
    exact List.pairwise_map.2 (index.routes.increasing.imp Network.compare_eq_lt_iff.1)
  keyed e he := by
    obtain ⟨entry, hentry, rfl⟩ := List.mem_map.1 he
    exact ⟨index.canonical _ (List.mem_map_of_mem hentry), rfl⟩
  bound n labels := by
    rw [SortedMap.mem_entries_iff, RouteIndex.get?_table, RouteIndex.bindings]
    cases index.routes.get? n <;> simp
  found n := index.get?_table n.truncate

/-- Whatever is inserted and removed, an index does what the finite map does that binds canonical networks. -/
theorem run_follows (moves : List RouteMove) :
    let index := (RouteIndex.empty.run moves).2
    let table := (run SortedMap.empty moves).2
    let b := (Bindings.empty.run moves).2
    (run SortedMap.empty moves).1 = (Bindings.empty.run moves).1 ∧
      Holds table b ∧
      (∀ m e, (obey table m).1 = .error e → (obey table m).2 = table) ∧
      (∀ n n', n.truncate = n'.truncate → Alike table n n') ∧
      ((RouteIndex.empty.run moves).1 = (Bindings.empty.run moves).1 ∧ index.table = table ∧
        ∀ n, index.get? n = find? table n) := by
  intro index table b
  have hbindings : Bindings.empty.run moves = ((RouteIndex.empty.run moves).1, index.bindings) :=
    RouteIndex.empty.bindings_run moves
  have htable : run SortedMap.empty moves = ((RouteIndex.empty.run moves).1, index.table) :=
    RouteIndex.empty.table_run moves
  have hb : b = index.bindings := congrArg Prod.snd hbindings
  have ht : table = index.table := congrArg Prod.snd htable
  refine ⟨?_, ?_, fun m e herror => ?_, fun n n' h => alike table h, ?_, ht.symm, fun n => ?_⟩
  · rw [hbindings, htable]
  · rw [hb, ht]
    exact holds_table index
  · rw [ht, RouteIndex.table_obey] at herror ⊢
    rw [RouteIndex.eq_of_obey_error herror]
  · rw [hbindings]
  · rw [ht, RouteIndex.find?_table]

end RouteTable

end AddressRegistry
