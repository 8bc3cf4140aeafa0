import AddressRegistry.Network.Parse
import AddressRegistry.Network.Printer
import Mathlib.Algebra.Order.Group.Nat

/-!
# Reading printed addresses

What the printer writes for an address, the reader of its family reads back, whatever follows the
address in a text of a network (`readIPv4_dotted`, `readIPv6_colonForm`). The reader of IPv6 addresses
tries an IPv4 address in front of each group; it fails there because no dot follows the first number of
a group (`readIPv4_group`).
-/

namespace AddressRegistry.Network

namespace Syntax

variable {base most bound n : Nat} {cs rest : List Char} {c : Char}

/-! ## Numbers -/

/-- A digit that the printer writes reads back as itself, in every base up to sixteen. -/
theorem digit?_digitChar (hbase : base ≤ 16) : ∀ d < base, digit? base (Nat.digitChar d) = some d := by
  have h : ∀ base ≤ 16, ∀ d < base, digit? base (Nat.digitChar d) = some d := by decide +kernel
  exact h base hbase

/-- Each character of a printed number is a digit of its base. -/
theorem exists_of_mem_toDigits (hbase : 1 < base) (h : c ∈ Nat.toDigits base n) :
    ∃ d < base, c = Nat.digitChar d := by
  induction n using Nat.strongRecOn with
  | ind n ih =>
    rw [Nat.toDigits_eq_if hbase] at h
    split at h
    · exact ⟨n, by assumption, List.mem_singleton.1 h⟩
    · rename_i hn
      rcases List.mem_append.1 h with h | h
      · exact ih (n / base) (Nat.div_lt_self (by omega) hbase) h
      · exact ⟨n % base, Nat.mod_lt n (by omega), List.mem_singleton.1 h⟩

/-- The digits of a number have that number for a value. -/
theorem numberOf_toDigits (hbase : 1 < base) (hbase' : base ≤ 16) (n : Nat) :
    numberOf base (Nat.toDigits base n) = n := by
  induction n using Nat.strongRecOn with
  | ind n ih =>
    rw [Nat.toDigits_eq_if hbase]
    split
    · rename_i hn
      simp [numberOf, digit?_digitChar hbase' n hn]
    · have hlt : n / base < n := Nat.div_lt_self (by omega) hbase
      have hmod : n % base < base := Nat.mod_lt n (by omega)
      have hstep := ih (n / base) hlt
      unfold numberOf at hstep
      rw [numberOf, List.foldl_append, hstep, List.foldl_cons, List.foldl_nil,
        digit?_digitChar hbase' _ hmod, Option.getD_some]
      exact Nat.div_add_mod' n base

/-- No digit of a base comes next. -/
def Stops (base : Nat) (rest : List Char) : Prop := ∀ c ∈ rest.head?, digit? base c = none

/-- A printed number reads back, if it is below the bound, not too long, and followed by something that is
not a digit. The last condition is what the callers have to show: the reader is greedy. -/
theorem readNumber_toDigits (hbase : 1 < base) (hbase' : base ≤ 16) (hmost : 0 < most)
    (hn : n < bound) (hlen : n < base ^ most) (hrest : Stops base rest) :
    readNumber base most bound (Nat.toDigits base n ++ rest) = some (n, rest) := by
  have hdigits : ((Nat.toDigits base n ++ rest).takeWhile fun c => (digit? base c).isSome)
      = Nat.toDigits base n := by
    rw [List.takeWhile_append_of_pos]
    · cases rest with
      | nil => rw [List.takeWhile_nil, List.append_nil]
      | cons c t =>
        rw [List.takeWhile_cons, hrest c rfl]
        exact List.append_nil _
    · intro c hc
      obtain ⟨d, hd, rfl⟩ := exists_of_mem_toDigits hbase hc
      rw [digit?_digitChar hbase' d hd]
      rfl
  rw [readNumber, hdigits, numberOf_toDigits hbase hbase', List.drop_left]
  exact if_pos ⟨Nat.length_toDigits_pos, (Nat.length_toDigits_le_iff hbase hmost).2 hlen, hn⟩

/-- Dropping as many elements as the longest prefix with a property leaves what comes after this prefix. -/
theorem drop_length_takeWhile {α : Type} (p : α → Bool) (l : List α) :
    l.drop (l.takeWhile p).length = l.dropWhile p := by
  have hsplit := congrArg (List.drop (l.takeWhile p).length) (l.takeWhile_append_dropWhile (p := p))
  rw [List.drop_left] at hsplit
  exact hsplit.symm

/-- Reading a number leaves what follows the digits. -/
theorem eq_dropWhile_of_readNumber {v : Nat} (h : readNumber base most bound cs = some (v, rest)) :
    rest = cs.dropWhile fun c => (digit? base c).isSome := by
  rw [readNumber] at h
  split at h
  · cases h
    exact drop_length_takeWhile _ cs
  · cases h

/-- A number does not start with a character that is no digit. -/
theorem readNumber_eq_none (h : digit? base c = none) :
    readNumber base most bound (c :: cs) = none := by
  unfold readNumber
  rw [List.takeWhile_cons, h]
  exact if_neg (by simp)

/-! ## IPv4 addresses -/

/-- The decimal parts of an IPv4 address read back. -/
theorem readNumber_decimal (hn : n < 256) (hrest : Stops 10 rest) :
    readNumber 10 3 256 (Printer.decimal n ++ rest) = some (n, rest) :=
  readNumber_toDigits (by omega) (by omega) (by omega) hn (by omega) hrest

/-- A character that is no digit ends a number. -/
theorem stops_of_digit? (h : digit? base c = none) : Stops base (c :: rest) := by
  intro c' hc'
  cases hc'
  exact h

/-- An IPv4 address reads back in front of anything but a further digit. -/
theorem readIPv4_dotted {a : Nat} (ha : a < 4294967296) (hrest : Stops 10 rest) :
    readIPv4 (Printer.dotted a ++ rest) = some (a, rest) := by
  have hdot : ∀ t, Stops 10 ('.' :: t) := fun t => stops_of_digit? (by decide)
  have hvalue : ((a / 16777216 % 256 * 256 + a / 65536 % 256) * 256 + a / 256 % 256) * 256 + a % 256
      = a := by omega
  have hchars : Printer.dotted a ++ rest
      = Printer.decimal (a / 16777216 % 256) ++ '.' :: (Printer.decimal (a / 65536 % 256) ++ '.' ::
        (Printer.decimal (a / 256 % 256) ++ '.' :: (Printer.decimal (a % 256) ++ rest))) := by
    simp [Printer.dotted, Printer.octets, Printer.joinWith]
  rw [hchars, readIPv4, readNumber_decimal (Nat.mod_lt _ (by omega)) (hdot _)]
  show (readNumber 10 3 256 (Printer.decimal (a / 65536 % 256) ++ _) >>= _) = _
  rw [readNumber_decimal (Nat.mod_lt _ (by omega)) (hdot _)]
  show (readNumber 10 3 256 (Printer.decimal (a / 256 % 256) ++ _) >>= _) = _
  rw [readNumber_decimal (Nat.mod_lt _ (by omega)) (hdot _)]
  show (readNumber 10 3 256 (Printer.decimal (a % 256) ++ _) >>= _) = _
  rw [readNumber_decimal (Nat.mod_lt _ (by omega)) hrest]
  exact congrArg (fun v => some (v, rest)) hvalue

/-- Without a dot behind the first number there is no IPv4 address. -/
theorem readIPv4_eq_none (h : ∀ c ∈ (cs.dropWhile fun c => (digit? 10 c).isSome).head?, c ≠ '.') :
    readIPv4 cs = none := by
  unfold readIPv4
  cases hnumber : readNumber 10 3 256 cs with
  | none => rfl
  | some answer =>
    obtain ⟨v, rest⟩ := answer
    have hdot : readChar '.' rest = none := by
      rw [eq_dropWhile_of_readNumber hnumber]
      cases hdrop : cs.dropWhile fun c => (digit? 10 c).isSome with
      | nil => rfl
      | cons c t => exact if_neg (h c (by rw [hdrop]; rfl))
    show (readChar '.' rest >>= _) = none
    rw [hdot]
    rfl

/-! ## Groups -/

/-- What may stand behind a group: a colon or a slash. -/
def EndsGroup (rest : List Char) : Prop := ∃ t, rest = ':' :: t ∨ rest = '/' :: t

/-- What ends a group of an IPv6 address ends a number in every base in use. -/
theorem EndsGroup.stops (h : EndsGroup rest) (hbase : base ≤ 16) : Stops base rest := by
  have hdigit : ∀ base ≤ 16, digit? base ':' = none ∧ digit? base '/' = none := by decide +kernel
  obtain ⟨t, rfl | rfl⟩ := h
  · exact stops_of_digit? (hdigit base hbase).1
  · exact stops_of_digit? (hdigit base hbase).2

/-- What ends a group does not start with a number. -/
theorem EndsGroup.readNumber_eq_none (h : EndsGroup rest) (hbase : base ≤ 16) :
    readNumber base most bound rest = none := by
  have hstops : Stops base rest := h.stops hbase
  obtain ⟨t, rfl | rfl⟩ := h
  · exact Syntax.readNumber_eq_none (hstops ':' rfl)
  · exact Syntax.readNumber_eq_none (hstops '/' rfl)

/-- No dot follows the decimal digits behind a group, so these are never taken for the start of an IPv4
address. -/
theorem EndsGroup.head_dropWhile (h : EndsGroup rest) :
    ∀ c ∈ (rest.dropWhile fun c => (digit? 10 c).isSome).head?, c ≠ '.' := by
  obtain ⟨t, rfl | rfl⟩ := h
  · rw [List.dropWhile_cons_of_neg (by decide)]
    rintro c ⟨⟩
    decide
  · rw [List.dropWhile_cons_of_neg (by decide)]
    rintro c ⟨⟩
    decide

/-- A group is no start of an IPv4 address. -/
theorem readIPv4_group (h : EndsGroup rest) (g : Nat) :
    readIPv4 (Printer.hexadecimal g ++ rest) = none := by
  apply readIPv4_eq_none
  rw [List.dropWhile_append]
  split
  · exact h.head_dropWhile
  · rename_i hne
    intro c hc
    have hmem : c ∈ Printer.hexadecimal g := by
      cases hdrop : (Printer.hexadecimal g).dropWhile fun c => (digit? 10 c).isSome with
      | nil =>
        rw [hdrop] at hne
        exact absurd rfl hne
      | cons c' t =>
        rw [hdrop] at hc
        cases hc
        exact (List.dropWhile_sublist _).subset (hdrop ▸ List.mem_cons_self)
    obtain ⟨d, hd, rfl⟩ := exists_of_mem_toDigits (by omega) hmem
    exact (by decide : ∀ d < 16, Nat.digitChar d ≠ '.') d hd

/-- A hexadecimal group reads back. -/
theorem readNumber_group {g : Nat} (hg : g < 65536) (h : EndsGroup rest) :
    readNumber 16 4 65536 (Printer.hexadecimal g ++ rest) = some (g, rest) :=
  readNumber_toDigits (by omega) (by omega) (by omega) hg (by omega) (h.stops (by omega))

/-- What may stand behind a run of groups: a slash, or two colons. -/
def EndsRun (rest : List Char) : Prop := ∃ t, rest = '/' :: t ∨ rest = ':' :: ':' :: t

/-- What ends a run of groups ends a group too. -/
theorem EndsRun.endsGroup (h : EndsRun rest) : EndsGroup rest := by
  obtain ⟨t, rfl | rfl⟩ := h
  · exact ⟨t, Or.inr rfl⟩
  · exact ⟨':' :: t, Or.inl rfl⟩

/-- One group of a run. -/
theorem readGroups_succ {room g : Nat} {start : Bool} {lead : List Char}
    (hlead : (if start then some cs else readChar ':' cs) = some lead)
    (hdotted : readIPv4 lead = none) (hgroup : readNumber 16 4 65536 lead = some (g, rest)) :
    readGroups (room + 1) start cs
      = (g :: (readGroups room false rest).1, (readGroups room false rest).2) := by
  rw [readGroups, hlead, Option.bind_some, Option.bind_some, hdotted, hgroup, ite_self]

/-- The end of a run. -/
theorem readGroups_nil (h : EndsRun rest) (room : Nat) (start : Bool) :
    readGroups room start rest = ([], false, rest) := by
  cases room with
  | zero => rfl
  | succ room =>
    have hnone : ∀ t, EndsGroup t → readIPv4 t = none ∧ readNumber 16 4 65536 t = none := by
      intro t ht
      exact ⟨readIPv4_eq_none ht.head_dropWhile, ht.readNumber_eq_none (by omega)⟩
    obtain ⟨t, rfl | rfl⟩ := h
    · cases start <;> simp [readGroups, readChar, hnone _ ⟨t, Or.inr rfl⟩]
    · cases start <;>
        simp [readGroups, readChar, hnone _ ⟨t, Or.inl rfl⟩, hnone _ ⟨':' :: t, Or.inl rfl⟩]

/-- Groups with a colon before each. -/
def trail (gs : List Nat) : List Char := gs.flatMap fun g => ':' :: Printer.hexadecimal g

/-- A run of groups is its first group and a trail in which each group has its colon before it. -/
theorem colons_cons (g : Nat) (gs : List Nat) :
    Printer.colons (g :: gs) = Printer.hexadecimal g ++ trail gs := by
  induction gs generalizing g with
  | nil => simp [Printer.colons, Printer.joinWith, trail]
  | cons g' gs ih =>
    have hnext : Printer.colons (g :: g' :: gs)
        = Printer.hexadecimal g ++ ':' :: Printer.colons (g' :: gs) := rfl
    rw [hnext, ih]
    rfl

/-- A trail of groups, with something behind it that ends a run, ends the group before it. -/
theorem EndsRun.endsGroup_trail (h : EndsRun rest) (gs : List Nat) : EndsGroup (trail gs ++ rest) := by
  cases gs with
  | nil => exact h.endsGroup
  | cons g gs => exact ⟨_, Or.inl rfl⟩

/-- A trail of groups reads back group for group, if there is room for all of them. The induction is on the
groups, and each step reads one colon and one group. -/
theorem readGroups_trail {room : Nat} {gs : List Nat} (hroom : gs.length ≤ room)
    (hgs : ∀ g ∈ gs, g < 65536) (h : EndsRun rest) :
    readGroups room false (trail gs ++ rest) = (gs, false, rest) := by
  induction gs generalizing room with
  | nil => exact readGroups_nil h room false
  | cons g gs ih =>
    obtain ⟨room, rfl⟩ : ∃ k, room = k + 1 := ⟨room - 1, by rw [List.length_cons] at hroom; omega⟩
    obtain ⟨hg, hgs⟩ := List.forall_mem_cons.1 hgs
    have hend := h.endsGroup_trail gs
    have hchars : trail (g :: gs) ++ rest = ':' :: (Printer.hexadecimal g ++ (trail gs ++ rest)) := by
      simp [trail]
    rw [hchars, readGroups_succ rfl (readIPv4_group hend g) (readNumber_group hg hend),
      ih (by rw [List.length_cons] at hroom; omega) hgs]

/-- Printed groups are read as they were, if there is room for them. -/
theorem readGroups_colons {room : Nat} {gs : List Nat} (hroom : gs.length ≤ room)
    (hgs : ∀ g ∈ gs, g < 65536) (h : EndsRun rest) :
    readGroups room true (Printer.colons gs ++ rest) = (gs, false, rest) := by
  cases gs with
  | nil => exact readGroups_nil h room true
  | cons g gs =>
    obtain ⟨room, rfl⟩ : ∃ k, room = k + 1 := ⟨room - 1, by rw [List.length_cons] at hroom; omega⟩
    obtain ⟨hg, hgs⟩ := List.forall_mem_cons.1 hgs
    have hend := h.endsGroup_trail gs
    rw [colons_cons, List.append_assoc, readGroups_succ rfl (readIPv4_group hend g)
      (readNumber_group hg hend), readGroups_trail (by rw [List.length_cons] at hroom; omega) hgs h]

/-! ## IPv6 addresses -/

/-- The groups that are left out are zeros. -/
theorem longestZeroRun_spec (gs : List Nat) :
    gs.take (Printer.longestZeroRun gs).1 ++ List.replicate (Printer.longestZeroRun gs).2 0
      ++ gs.drop ((Printer.longestZeroRun gs).1 + (Printer.longestZeroRun gs).2) = gs := by
  induction gs with
  | nil => rfl
  | cons g gs ih =>
    unfold Printer.longestZeroRun
    dsimp only
    split
    · have hzeros : (g :: gs).takeWhile (· == 0)
          = List.replicate ((g :: gs).takeWhile (· == 0)).length 0 := by
        refine List.eq_replicate_iff.2 ⟨rfl, fun x hx => ?_⟩
        simpa using List.all_eq_true.1 List.all_takeWhile x hx
      rw [← hzeros, List.take_zero, List.nil_append, Nat.zero_add, drop_length_takeWhile]
      exact List.takeWhile_append_dropWhile
    · rw [Nat.add_right_comm, List.take_succ_cons, List.drop_succ_cons, List.cons_append,
        List.cons_append, ih]

/-- The eight groups of an address put together are the address. -/
theorem joinGroups_groups {a : Nat} (ha : a < 2 ^ 128) : joinGroups (Printer.groups a) = a := by
  simp [joinGroups, Printer.groups, powTwo]
  omega

/-- A group has sixteen bits. -/
theorem lt_of_mem_groups {a g : Nat} (h : g ∈ Printer.groups a) : g < 65536 := by
  obtain ⟨i, -, rfl⟩ := List.mem_map.1 h
  exact Nat.mod_lt _ (by omega)

/-- An address printed in full reads back. -/
theorem readIPv6_colons {gs : List Nat} (hlen : gs.length = 8) (hgs : ∀ g ∈ gs, g < 65536)
    (h : EndsRun rest) : readIPv6 (Printer.colons gs ++ rest) = some (joinGroups gs, rest) := by
  unfold readIPv6
  rw [readGroups_colons (by omega) hgs h]
  exact if_pos hlen

/-- Two runs of groups with two colons between them: zeros are filled in. -/
theorem readIPv6_gap {head tail : List Nat} {middle : List Char} {dotted : Bool}
    (hlen : head.length < 8) (hhead : ∀ g ∈ head, g < 65536)
    (htail : readGroups (8 - head.length) true middle = (tail, dotted, rest)) :
    readIPv6 (Printer.colons head ++ ':' :: ':' :: middle)
      = some (joinGroups (head ++ List.replicate (8 - head.length - tail.length) 0 ++ tail), rest) := by
  unfold readIPv6
  rw [readGroups_colons (by omega) hhead ⟨middle, Or.inr rfl⟩]
  dsimp only
  rw [if_neg (by omega), if_neg Bool.false_ne_true]
  have hsecond : readChar ':' (':' :: ':' :: middle) = some (':' :: middle) := rfl
  have hfirst : readChar ':' (':' :: middle) = some middle := rfl
  rw [hsecond, Option.bind_eq_bind, Option.bind_some, hfirst, Option.bind_some, htail]

/-- An address with its longest run of zero groups left out reads back: the groups on both sides are read,
and the missing ones are filled in with zeros up to eight. -/
theorem readIPv6_compressed {gs : List Nat} (hlen : gs.length = 8) (hgs : ∀ g ∈ gs, g < 65536)
    (h : EndsRun rest) :
    readIPv6 (Printer.compressed gs ++ rest) = some (joinGroups gs, rest) := by
  have hspec := longestZeroRun_spec gs
  have hlength := congrArg List.length hspec
  simp only [List.length_append, List.length_take, List.length_replicate, List.length_drop, hlen]
    at hlength
  unfold Printer.compressed
  generalize Printer.longestZeroRun gs = run at hspec hlength ⊢
  obtain ⟨start, length⟩ := run
  dsimp only at hspec hlength ⊢
  split
  · have htake : (gs.take start).length = start := by
      rw [List.length_take]
      omega
    have htail : readGroups (8 - (gs.take start).length) true
        (Printer.colons (gs.drop (start + length)) ++ rest)
          = (gs.drop (start + length), false, rest) :=
      readGroups_colons (by rw [List.length_drop]; omega)
        (fun g hg => hgs g (List.mem_of_mem_drop hg)) h
    have hfill : 8 - (gs.take start).length - (gs.drop (start + length)).length = length := by
      rw [List.length_drop]
      omega
    have hread := readIPv6_gap (by omega) (fun g hg => hgs g (List.mem_of_mem_take hg)) htail
    rw [hfill, hspec] at hread
    rw [← hread]
    simp
  · exact readIPv6_colons hlen hgs h

/-- An address that embeds an IPv4 address. -/
theorem readIPv6_embedded {v : Nat} (hv : v < 4294967296) (h : EndsRun rest) :
    readIPv6 ("::ffff:".toList ++ Printer.dotted v ++ rest) = some (65535 * 4294967296 + v, rest) := by
  have hdotted := readIPv4_dotted hv (h.endsGroup.stops (by omega))
  have hlast : readGroups 7 false (':' :: (Printer.dotted v ++ rest))
      = ([v / 65536, v % 65536], true, rest) := by
    unfold readGroups
    dsimp only [readChar]
    rw [if_pos (by omega)]
    simp only [Bool.false_eq_true, if_false, if_true, Option.bind_some, hdotted]
  have hgroup : EndsGroup (':' :: (Printer.dotted v ++ rest)) := ⟨_, Or.inl rfl⟩
  have htail : readGroups 8 true (Printer.hexadecimal 65535 ++ ':' :: (Printer.dotted v ++ rest))
      = ([65535, v / 65536, v % 65536], true, rest) := by
    rw [readGroups_succ rfl (readIPv4_group hgroup _) (readNumber_group (by omega) hgroup), hlast]
  have hread := @readIPv6_gap _ [] _ _ _ (by decide) nofun htail
  have hchars : "::ffff:".toList ++ Printer.dotted v ++ rest = Printer.colons [] ++ ':' :: ':' ::
      (Printer.hexadecimal 65535 ++ ':' :: (Printer.dotted v ++ rest)) := by
    have hstart : "::ffff:".toList = ':' :: ':' :: (Printer.hexadecimal 65535 ++ [':']) := by decide
    rw [hstart]
    simp [Printer.colons, Printer.joinWith]
  have hvalue : joinGroups ([] ++ List.replicate (8 - 0 - 3) 0 ++ [65535, v / 65536, v % 65536])
      = 65535 * 4294967296 + v := by
    simp [joinGroups]
    omega
  rw [hchars, hread]
  exact congrArg (fun a => some (a, rest)) hvalue

/-- An IPv6 address reads back, in whichever of the three forms the printer chose for it. -/
theorem readIPv6_colonForm {a : Nat} (ha : a < 2 ^ 128) (h : EndsRun rest) :
    readIPv6 (Printer.colonForm a ++ rest) = some (a, rest) := by
  unfold Printer.colonForm
  split
  · rw [readIPv6_embedded (Nat.mod_lt a (by omega)) h]
    refine congrArg (fun a => some (a, rest)) ?_
    omega
  · rw [readIPv6_compressed rfl (fun g hg => lt_of_mem_groups hg) h, joinGroups_groups ha]

end Syntax

end AddressRegistry.Network
