import AddressRegistry.Config.Basic
import AddressRegistry.Proofs.Outcome
import Mathlib.Data.List.DropRight

/-!
# The delays that a ladder hands out

The operations of a ladder come in any order, over any names. A name stands on its rung (`Ladder.rung`),
and what it gets does not depend on the operations on other names (`AgreeAt.transcript`). Since it was last
put back to the bottom, its rung is the number of the delays that it got, up to the cap
(`climbed_transcript`). With the delays of a checked schedule it is told to wait very shortly once, shortly
as long as the cap has not been reached, and for the poll interval from then on (`delays_escalate`).
-/

namespace AddressRegistry

/-! ## What a check of a schedule lets through -/

/-- A checked schedule has a positive cap, and its delays do not shrink. -/
theorem Schedule.policy_of_check {s : Schedule} (h : s.check = .ok ()) :
    0 < s.policy.cap ∧ s.policy.veryShort ≤ s.policy.short ∧ s.policy.short ≤ s.policy.poll := by
  simp only [check, Except.throw_bind_unless_eq_ok_iff, Except.throw_unless_eq_ok_iff] at h
  obtain ⟨-, -, -, hcap, hshort, hpoll, -⟩ := h
  exact ⟨Nat.pos_of_ne_zero hcap, Nat.mul_le_mul_right _ (Nat.le_of_not_lt hshort),
    Nat.mul_le_mul_right _ (Nat.le_of_not_lt hpoll)⟩

namespace Ladder

/-! ## Rungs -/

/-- Where a name stands; one without an entry stands at the bottom. -/
def rung (l : Ladder) (name : String) : Nat := (l.counter? name).getD 0

/-- One rung higher, up to the cap. -/
def climb (cap n : Nat) : Nat := if n < cap then n + 1 else n

/-- Climbing from the cap stays at the cap, so it does not matter whether one stops there before. -/
theorem climb_min (cap n : Nat) : climb cap (min n cap) = min (n + 1) cap := by
  unfold climb
  split <;> omega

/-- The delays are the same after one of them was handed out. -/
@[simp] theorem policy_next (l : Ladder) (name : String) : (l.next name).2.policy = l.policy := rfl

/-- The delays are the same after a name was put back. -/
@[simp] theorem policy_reset (l : Ladder) (name : String) : (l.reset name).policy = l.policy := rfl

/-- The delays are the same after a name was forgotten. -/
@[simp] theorem policy_forget (l : Ladder) (name : String) : (l.forget name).policy = l.policy := rfl

/-- The delays are the same after a name began to be tracked. -/
@[simp] theorem policy_track (l : Ladder) (name : String) : (l.track name).policy = l.policy := by
  unfold track
  split <;> rfl

/-- A ladder has the delays that it was started with. -/
@[simp] theorem policy_start (policy : RetryPolicy) : (start policy).policy = policy := rfl

/-- The delay that a name gets is that of its rung before it climbs. -/
theorem delay_next (l : Ladder) (name : String) : (l.next name).1 = l.policy.delayFor (l.rung name) := rfl

/-- Only the name that asks climbs. -/
theorem counter?_next (l : Ladder) (name name' : String) :
    (l.next name).2.counter? name'
      = if name' = name then some (climb l.policy.cap (l.rung name)) else l.counter? name' := by
  simp only [next, counter?, SortedMap.get?_insert, Std.compare_eq_iff_eq]
  rfl

/-- Only the name that is put back stands at the bottom then. -/
theorem counter?_reset (l : Ladder) (name name' : String) :
    (l.reset name).counter? name' = if name' = name then some 0 else l.counter? name' := by
  simp [reset, counter?, SortedMap.get?_insert]

/-- Only the name that is forgotten loses its counter. -/
theorem counter?_forget (l : Ladder) (name name' : String) :
    (l.forget name).counter? name' = if name' = name then none else l.counter? name' := by
  simp [forget, counter?, SortedMap.get?_erase]

/-- A name that begins to be tracked keeps its rung, and others keep their counters. -/
theorem counter?_track (l : Ladder) (name name' : String) :
    (l.track name).counter? name' = if name' = name then some (l.rung name) else l.counter? name' := by
  unfold track
  split
  · rename_i hthere
    obtain ⟨counter, hcounter⟩ := Option.isSome_iff_exists.1 hthere
    by_cases hname : name' = name <;> simp_all [rung, counter?]
  · rename_i hmissing
    rw [Bool.not_eq_true, SortedMap.contains_eq_false_iff] at hmissing
    rw [counter?_reset, rung, show l.counter? name = none from hmissing]
    rfl

/-- Whoever asks stands one rung higher, up to the cap. -/
theorem rung_next (l : Ladder) (name name' : String) :
    (l.next name).2.rung name' = if name' = name then climb l.policy.cap (l.rung name) else l.rung name' := by
  rw [rung, counter?_next]
  split <;> rfl

/-- Whoever is put back stands at the bottom. -/
theorem rung_reset (l : Ladder) (name name' : String) :
    (l.reset name).rung name' = if name' = name then 0 else l.rung name' := by
  rw [rung, counter?_reset]
  split <;> rfl

/-- Whoever is forgotten stands at the bottom too. -/
theorem rung_forget (l : Ladder) (name name' : String) :
    (l.forget name).rung name' = if name' = name then 0 else l.rung name' := by
  rw [rung, counter?_forget]
  split <;> rfl

/-- Being tracked moves nobody. -/
@[simp] theorem rung_track (l : Ladder) (name name' : String) : (l.track name).rung name' = l.rung name' := by
  rw [rung, counter?_track]
  split
  · rename_i h
    rw [h, Option.getD_some]
  · rfl

/-! ## Operations -/

/-- The operations of a ladder. -/
inductive Call where
  | next (name : String)
  | reset (name : String)
  | track (name : String)
  | forget (name : String)
deriving DecidableEq

namespace Call

/-- Whom a call concerns. -/
def name : Call → String
  | .next name | .reset name | .track name | .forget name => name

/-- Whether a call puts a name back to the bottom. -/
def clears (name : String) : Call → Bool
  | .reset name' | .forget name' => name' == name
  | .next _ | .track _ => false

end Call

/-- The delay that a call hands out, if it does, and the ladder after it. -/
def serve (l : Ladder) : Call → Option Nat × Ladder
  | .next name => (some (l.next name).1, (l.next name).2)
  | .reset name => (none, l.reset name)
  | .track name => (none, l.track name)
  | .forget name => (none, l.forget name)

/-- The ladder after a run. -/
def run (l : Ladder) (calls : List Call) : Ladder := calls.foldl (fun l call => (l.serve call).2) l

/-- A run, each call with the delay that it handed out. -/
def transcript : Ladder → List Call → List (Call × Option Nat)
  | _, [] => []
  | l, call :: calls => (call, (l.serve call).1) :: transcript (l.serve call).2 calls

/-- The delays handed out to a name since it was last reset or forgotten. -/
def delaysSince (name : String) (t : List (Call × Option Nat)) : List Nat :=
  (t.rtakeWhile fun e => !e.1.clears name).filterMap fun e =>
    if e.1.name = name then e.2 else none

/-- No call changes the delays. -/
@[simp] theorem policy_serve (l : Ladder) (call : Call) : (l.serve call).2.policy = l.policy := by
  cases call <;> simp [serve]

/-- No run of calls changes the delays. -/
@[simp] theorem policy_run (l : Ladder) (calls : List Call) : (l.run calls).policy = l.policy := by
  induction calls generalizing l with
  | nil => rfl
  | cons call calls ih => exact (ih _).trans (policy_serve l call)

/-- A run with one more call. -/
theorem run_concat (l : Ladder) (calls : List Call) (call : Call) :
    l.run (calls ++ [call]) = ((l.run calls).serve call).2 := by
  simp [run]

/-- The transcript of a run with one more call ends with the answer to that one. -/
theorem transcript_concat (l : Ladder) (calls : List Call) (call : Call) :
    l.transcript (calls ++ [call]) = l.transcript calls ++ [(call, ((l.run calls).serve call).1)] := by
  induction calls generalizing l with
  | nil => rfl
  | cons first calls ih => simp [transcript, ih, run]

/-! ## One name apart from the others -/

/-- Two ladders that treat a name alike. -/
structure AgreeAt (name : String) (l l' : Ladder) : Prop where
  policy_eq : l.policy = l'.policy
  counter?_eq : l.counter? name = l'.counter? name

/-- Other names stay where they are. -/
theorem AgreeAt.serve_other {call : Call} {name : String} {l l' : Ladder} (h : AgreeAt name l l')
    (hne : name ≠ call.name) : AgreeAt name (l.serve call).2 l' where
  policy_eq := (policy_serve l call).trans h.policy_eq
  counter?_eq := by
    rw [← h.counter?_eq]
    rcases call <;>
      simp_all [Ladder.serve, Call.name, counter?_next, counter?_reset, counter?_forget, counter?_track]

/-- Ladders that agree about a name give it the same answers, and agree about it afterwards. -/
theorem AgreeAt.serve {call : Call} {l l' : Ladder} (h : AgreeAt call.name l l') :
    (l.serve call).1 = (l'.serve call).1 ∧ AgreeAt call.name (l.serve call).2 (l'.serve call).2 := by
  have hrung : l.rung call.name = l'.rung call.name := congrArg (Option.getD · 0) h.counter?_eq
  refine ⟨?_, ?_, ?_⟩
  · rcases call <;> simp_all [Ladder.serve, Call.name, delay_next, h.policy_eq]
  · rw [policy_serve, policy_serve, h.policy_eq]
  · rcases call <;>
      simp_all [Ladder.serve, Call.name, counter?_next, counter?_reset, counter?_forget, counter?_track,
        h.policy_eq]

/-- What a name gets does not depend on the operations on other names. -/
theorem AgreeAt.transcript {name : String} {l l' : Ladder} (h : AgreeAt name l l') (calls : List Call) :
    (l.transcript calls).filter (fun e => e.1.name == name)
        = l'.transcript (calls.filter fun call => call.name == name) ∧
      AgreeAt name (l.run calls) (l'.run (calls.filter fun call => call.name == name)) := by
  induction calls generalizing l l' with
  | nil => exact ⟨rfl, h⟩
  | cons call calls ih =>
    by_cases hname : call.name = name
    · subst hname
      obtain ⟨hanswer, hafter⟩ := h.serve
      obtain ⟨htranscript, hrun⟩ := ih hafter
      rw [Ladder.transcript, List.filter_cons_of_pos (by simp), List.filter_cons_of_pos (by simp),
        Ladder.transcript, htranscript, hanswer]
      exact ⟨rfl, hrun⟩
    · obtain ⟨htranscript, hrun⟩ := ih (h.serve_other (Ne.symm hname))
      rw [Ladder.transcript, List.filter_cons_of_neg (by simpa using hname),
        List.filter_cons_of_neg (by simpa using hname)]
      exact ⟨htranscript, hrun⟩

/-! ## Delays since the bottom -/

/-- The delays since a name was last put back, after one more call: it begins anew, or it gets one more
delay, or the call was about another name. -/
theorem delaysSince_concat (name : String) (t : List (Call × Option Nat)) (e : Call × Option Nat) :
    delaysSince name (t ++ [e]) =
      if e.1.clears name then []
      else delaysSince name t ++ if e.1.name = name then e.2.toList else [] := by
  obtain ⟨call, delay⟩ := e
  unfold delaysSince
  rw [List.rtakeWhile_concat]
  by_cases hclears : call.clears name = true
  · simp [hclears]
  · by_cases hname : call.name = name <;> rcases delay with _ | delay <;> simp [hclears, hname]

end Ladder

/-- The delays for one failure after the other. -/
def RetryPolicy.delays (p : RetryPolicy) (n : Nat) : List Nat :=
  (List.range n).map fun i => p.delayFor (min i p.cap)

namespace RetryPolicy

variable {p : RetryPolicy}

/-- The next delay is that of the rung that the delays before lead to. -/
theorem delays_succ (p : RetryPolicy) (n : Nat) :
    p.delays (n + 1) = p.delays n ++ [p.delayFor (min n p.cap)] := by
  simp [delays, List.range_succ]

/-- With a cap, the delays begin with the very short one, go on with the short one until the cap is reached,
and with the poll interval from then on. -/
theorem delays_eq_take (h : 0 < p.cap) (n : Nat) :
    p.delays n =
      (p.veryShort :: List.replicate (p.cap - 1) p.short ++ List.replicate n p.poll).take n := by
  apply List.ext_getElem
  · simp [delays]
    omega
  · intro i hi _
    have hlt : i < n := by simpa [delays] using hi
    rw [List.getElem_take]
    rcases i with _ | i
    · simp [delays, delayFor]
    · simp only [delays, delayFor, List.getElem_map, List.getElem_range, List.cons_append,
        List.getElem_cons_succ, List.getElem_append, List.length_replicate, List.getElem_replicate]
      split_ifs <;> first | rfl | omega

/-- Delays do not shrink from rung to rung, if the three of them are in order. -/
theorem delayFor_mono (hcap : 0 < p.cap) (hshort : p.veryShort ≤ p.short) (hpoll : p.short ≤ p.poll)
    {i j : Nat} (h : i ≤ j) : p.delayFor i ≤ p.delayFor j := by
  unfold delayFor
  split_ifs <;> omega

/-- Delays that are handed out in a row do not shrink, if the three of them are in order. -/
theorem pairwise_delays (hcap : 0 < p.cap) (hshort : p.veryShort ≤ p.short) (hpoll : p.short ≤ p.poll)
    (n : Nat) : (p.delays n).Pairwise (· ≤ ·) := by
  refine List.pairwise_map.2 (List.pairwise_lt_range.imp fun {i j} hij => ?_)
  exact delayFor_mono hcap hshort hpoll (by omega)

end RetryPolicy

namespace Ladder

/-- Since a name was last put back to the bottom it climbed with every delay. -/
theorem climbed_transcript (p : RetryPolicy) (name : String) (calls : List Call) :
    let ds := delaysSince name ((start p).transcript calls)
    ((start p).run calls).rung name = min ds.length p.cap ∧ ds = p.delays ds.length := by
  induction calls using List.reverseRecOn with
  | nil => exact ⟨(Nat.zero_min _).symm, rfl⟩
  | append_singleton calls call ih =>
    obtain ⟨hrung, hdelays⟩ := ih
    simp only [transcript_concat, run_concat, delaysSince_concat]
    rcases call with name' | name' | name' | name'
    · by_cases hname : name' = name
      · -- the only call that climbs
        subst hname
        simp only [serve, Call.clears, Call.name, rung_next, policy_run, delay_next, if_true, hrung, policy_start,
          Option.toList_some, List.length_append, List.length_singleton, Bool.false_eq_true, if_false]
        rw [RetryPolicy.delays_succ, ← hdelays]
        exact ⟨climb_min _ _, rfl⟩
      · simpa [serve, Call.clears, Call.name, rung_next, hname, Ne.symm hname] using ⟨hrung, hdelays⟩
    · by_cases hname : name' = name
      · simp [serve, Call.clears, rung_reset, hname, RetryPolicy.delays]
      · simpa [serve, Call.clears, rung_reset, hname, Ne.symm hname] using ⟨hrung, hdelays⟩
    · simpa [serve, Call.clears] using ⟨hrung, hdelays⟩
    · by_cases hname : name' = name
      · simp [serve, Call.clears, rung_forget, hname, RetryPolicy.delays]
      · simpa [serve, Call.clears, rung_forget, hname, Ne.symm hname] using ⟨hrung, hdelays⟩

/-- The delays of a checked schedule grow until the poll interval is reached. -/
theorem delays_escalate {s : Schedule} (h : s.check = .ok ()) (calls : List Call) :
    (∀ name counter, ((start s.policy).run calls).counter? name = some counter → counter ≤ s.retryCap) ∧
      ∀ name,
        let t := (start s.policy).transcript calls
        let ds := delaysSince name t
        let own := calls.filter fun call => call.name == name
        ds = (s.policy.veryShort :: List.replicate (s.retryCap - 1) s.policy.short
            ++ List.replicate ds.length s.policy.poll).take ds.length ∧
          ds.Pairwise (· ≤ ·) ∧
          t.filter (fun e => e.1.name == name) = (start s.policy).transcript own ∧
          ((start s.policy).run calls).counter? name = ((start s.policy).run own).counter? name := by
  obtain ⟨hcap, hshort, hpoll⟩ := Schedule.policy_of_check h
  refine ⟨fun name counter hcounter => ?_, fun name => ?_⟩
  · have hrung := (climbed_transcript s.policy name calls).1
    rw [rung, hcounter, Option.getD_some] at hrung
    rw [hrung]
    exact Nat.min_le_right _ _
  · intro t ds own
    have hds : ds = s.policy.delays ds.length := (climbed_transcript s.policy name calls).2
    have hstart : AgreeAt name (start s.policy) (start s.policy) := ⟨rfl, rfl⟩
    obtain ⟨hown, hrun⟩ := hstart.transcript calls
    refine ⟨hds.trans (RetryPolicy.delays_eq_take hcap _), ?_, hown, hrun.counter?_eq⟩
    rw [hds]
    exact RetryPolicy.pairwise_delays hcap hshort hpoll _

/-- One name climbs while another one is put back and starts again. -/
theorem delays_escalate_standard :
    let calls : List Call := [.next "edge", .next "core", .track "edge", .next "edge", .reset "core",
      .next "edge", .next "core", .next "edge", .next "edge"]
    let t := (start Schedule.standard.policy).transcript calls
    Schedule.standard.check = .ok () ∧
      delaysSince "edge" t = [1000, 5000, 5000, 60000, 60000] ∧
      delaysSince "core" t = [1000] ∧
      (delaysSince "edge" t).Pairwise (· ≤ ·) := by
  intro calls t
  have hcheck : Schedule.standard.check = .ok () := rfl
  exact ⟨hcheck, by decide +kernel, by decide +kernel, ((delays_escalate hcheck calls).2 "edge").2.1⟩

end Ladder

end AddressRegistry
