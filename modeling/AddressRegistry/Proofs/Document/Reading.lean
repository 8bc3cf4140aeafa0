import AddressRegistry.Document.Basic
import AddressRegistry.Network.Family
import Mathlib.Data.List.Nodup
import Mathlib.Logic.Relation

/-!
# What readers look at

A reader of a record looks its fields up by name and passes over all others. A `Document.Shape` says at which
names it looks, down to the values inside. A document is widened by a shape when, at any record that the shape
knows, it gets a field with an unknown name, or its fields in another order (`Document.Widened`,
`Document.Widens`). A reader that keeps to a shape reads the same from both (`Document.Reads.widens`).

Readers of records are built from readers of fields, so what is shown of them is that they see no difference
between field lists that agree about the known names (`Document.Agree`, `Document.ReadsFields`).

The second part reads back what was written: scalars, lists and maps.
-/

namespace AddressRegistry

namespace Document

/-! ## Shapes -/

/-- Which parts of a document a reader looks at. -/
inductive Shape where
  /-- All of it. -/
  | exact
  /-- Of a record the fields with these names. -/
  | record (known : List (String × Shape))
  /-- Of a list every item. -/
  | list (item : Shape)

/-- A document and one with something more in it, or in another order, that does not concern a shape. -/
inductive Widened : Shape → Document → Document → Prop
  /-- A record gets a field with a name that is not known, wherever it stands. -/
  | unknown {known : List (String × Shape)} {before after : List (String × Document)} (name : String)
    (d : Document) (hunknown : known.lookup name = none) :
    Widened (.record known) (.record (before ++ after)) (.record (before ++ (name, d) :: after))
  /-- The fields of a record come in another order. -/
  | reordered {known : List (String × Shape)} {fields fields' : List (String × Document)}
    (hnames : (fields.map (·.1)).Nodup) (hperm : fields.Perm fields') :
    Widened (.record known) (.record fields) (.record fields')
  | field {known : List (String × Shape)} {before after : List (String × Document)} {name : String}
    {shape : Shape} {d d' : Document} (hknown : known.lookup name = some shape) (h : Widened shape d d') :
    Widened (.record known) (.record (before ++ (name, d) :: after)) (.record (before ++ (name, d') :: after))
  | item {shape : Shape} {before after : List Document} {d d' : Document} (h : Widened shape d d') :
    Widened (.list shape) (.list (before ++ d :: after)) (.list (before ++ d' :: after))

/-- A document, and one with any number of such changes. -/
def Widens (shape : Shape) : Document → Document → Prop := Relation.ReflTransGen (Widened shape)

/-- The names, each with all of its value. -/
def plainly (names : List String) : List (String × Shape) := names.map fun name => (name, .exact)

variable {α : Type} {shape : Shape} {d d' : Document} {name : String}
variable {known : List (String × Shape)} {fields fields' before after : List (String × Document)}

/-- The reader looks at nothing but the parts of a shape. -/
def Reads (shape : Shape) (read : Reader α) : Prop := ∀ d d', Widened shape d d' → read d' = read d

/-- Whatever keeps to a shape reads the same from a document and from a wider one. The steps that widen are
taken one by one. -/
theorem Reads.widens {read : Reader α} (hread : Reads shape read) (h : Widens shape d d') :
    read d' = read d := by
  induction h with
  | refl => rfl
  | tail _ hstep ih => exact (hread _ _ hstep).trans ih

/-- Every reader keeps to the shape that lets nothing be widened. -/
theorem reads_exact (read : Reader α) : Reads .exact read := nofun

/-! ## Fields -/

/-- A look-up in a list of fields goes by the first field that has the name. -/
theorem lookup_cons (name name' : String) (d : Document) (fields : List (String × Document)) :
    lookup name ((name', d) :: fields) = if name' = name then some d else lookup name fields := by
  unfold lookup
  by_cases h : name' = name
  · rw [if_pos h, List.find?_cons_of_pos (by simpa using h)]
    rfl
  · rw [if_neg h, List.find?_cons_of_neg (by simpa using h)]

/-- A look-up in two lists finds what stands in the first one, or else in the second one. -/
theorem lookup_append (name : String) (fields fields' : List (String × Document)) :
    lookup name (fields ++ fields') = (lookup name fields).or (lookup name fields') := by
  unfold lookup
  rw [List.find?_append, Option.map_or]

/-- Where names stand once, their order does not matter. -/
theorem lookup_of_perm (hnames : (fields.map (·.1)).Nodup) (hperm : fields.Perm fields') (name : String) :
    lookup name fields' = lookup name fields := by
  induction hperm with
  | nil => rfl
  | cons field _ ih =>
    obtain ⟨_, _⟩ := field
    rw [lookup_cons, lookup_cons, ih (List.nodup_cons.1 hnames).2]
  | swap a b _ =>
    obtain ⟨name₁, d₁⟩ := a
    obtain ⟨name₂, d₂⟩ := b
    have hne : name₂ ≠ name₁ := fun h => (List.nodup_cons.1 hnames).1 (by simp [h])
    rw [lookup_cons, lookup_cons, lookup_cons, lookup_cons]
    split <;> split <;> simp_all
  | trans hperm _ ih ih' =>
    exact (ih' ((hperm.map _).nodup_iff.1 hnames)).trans (ih hnames)

/-- Field lists say the same about every known name. -/
def Agree (known : List (String × Shape)) (fields fields' : List (String × Document)) : Prop :=
  ∀ name shape, known.lookup name = some shape →
    Option.Rel (Widens shape) (lookup name fields) (lookup name fields')

/-- What is found is wider than itself. -/
theorem rel_widens_refl (shape : Shape) (found : Option Document) : Option.Rel (Widens shape) found found := by
  cases found with
  | none => exact .none
  | some d => exact .some .refl

/-- Widening a record leads to one that agrees about the known names: a field with another name was put in,
or fields changed places, or a known one was widened inside. -/
theorem Widened.agree (h : Widened (.record known) d d') :
    ∃ fields fields', d = .record fields ∧ d' = .record fields' ∧ Agree known fields fields' := by
  cases h with
  | unknown name d hunknown =>
    refine ⟨_, _, rfl, rfl, fun name' shape hknown => ?_⟩
    have hne : name ≠ name' := by
      rintro rfl
      rw [hunknown] at hknown
      cases hknown
    rw [lookup_append, lookup_append, lookup_cons, if_neg hne]
    exact rel_widens_refl _ _
  | reordered hnames hperm =>
    refine ⟨_, _, rfl, rfl, fun name' shape _ => ?_⟩
    rw [lookup_of_perm hnames hperm]
    exact rel_widens_refl _ _
  | @field _ before after name shape d d' hknown h =>
    refine ⟨_, _, rfl, rfl, fun name' shape' hknown' => ?_⟩
    rw [lookup_append, lookup_append, lookup_cons, lookup_cons]
    cases lookup name' before with
    | some _ => exact rel_widens_refl _ _
    | none =>
      by_cases hname : name = name'
      · subst hname
        cases hknown.symm.trans hknown'
        rw [if_pos rfl, if_pos rfl]
        exact .some (.single h)
      · rw [if_neg hname, if_neg hname]
        exact rel_widens_refl _ _

/-- A field with an unknown name changes nothing in front either. -/
theorem agree_cons (d : Document) (fields : List (String × Document)) (hunknown : known.lookup name = none) :
    Agree known fields ((name, d) :: fields) := by
  intro name' shape hknown
  have hne : name ≠ name' := by
    rintro rfl
    rw [hunknown] at hknown
    cases hknown
  rw [lookup_cons, if_neg hne]
  exact rel_widens_refl _ _

/-- Agreement about known names is transitive. -/
theorem Agree.trans {fields'' : List (String × Document)} (h : Agree known fields fields')
    (h' : Agree known fields' fields'') : Agree known fields fields'' := by
  intro name shape hknown
  have hrel := h name shape hknown
  have hrel' := h' name shape hknown
  revert hrel hrel'
  generalize lookup name fields = found
  generalize lookup name fields' = found'
  generalize lookup name fields'' = found''
  rintro (hwidens | _) (hwidens' | _)
  · exact .some (hwidens.trans hwidens')
  · exact .none

/-- A widened record is a record that agrees about the known names. -/
theorem Widens.agree (h : Widens (.record known) (.record fields) d') :
    ∃ fields', d' = .record fields' ∧ Agree known fields fields' := by
  induction h with
  | refl => exact ⟨fields, rfl, fun _ shape _ => rel_widens_refl shape _⟩
  | tail _ hstep ih =>
    obtain ⟨_, rfl, hagree⟩ := ih
    obtain ⟨_, fields', heq, rfl, hagree'⟩ := hstep.agree
    cases heq
    exact ⟨fields', rfl, hagree.trans hagree'⟩

/-- A required field reads the same from lists that agree about it. -/
theorem Agree.required (h : Agree known fields fields') (name : String)
    (hknown : known.lookup name = some shape) {read : Reader α} (hread : Reads shape read) :
    required name read fields' = required name read fields := by
  unfold Document.required
  have hrel := h name shape hknown
  revert hrel
  generalize lookup name fields = found
  generalize lookup name fields' = found'
  rintro (hwidens | _)
  · exact hread.widens hwidens
  · rfl

/-- A field with a default reads the same from lists that agree about it. -/
theorem Agree.defaulted (h : Agree known fields fields') (name : String)
    (hknown : known.lookup name = some shape) {read : Reader α} (hread : Reads shape read) (absent : α) :
    defaulted name read absent fields' = defaulted name read absent fields := by
  unfold Document.defaulted
  have hrel := h name shape hknown
  revert hrel
  generalize lookup name fields = found
  generalize lookup name fields' = found'
  rintro (hwidens | _)
  · exact hread.widens hwidens
  · rfl

/-- What agrees about more names agrees about fewer. -/
theorem Agree.mono {fewer : List (String × Shape)} (h : Agree known fields fields')
    (hfewer : ∀ name shape, fewer.lookup name = some shape → known.lookup name = some shape) :
    Agree fewer fields fields' :=
  fun name shape hknown => h name shape (hfewer name shape hknown)

/-- Lists that agree about some names agree about fewer. -/
theorem Agree.of_append {more : List (String × Shape)} (h : Agree (known ++ more) fields fields') :
    Agree known fields fields' :=
  h.mono fun _ _ hknown => by
    rw [List.lookup_append, hknown]
    rfl

/-- A field that is known plainly is read as it stands. -/
theorem eq_exact_of_lookup_plainly {names : List String} (h : (plainly names).lookup name = some shape) :
    shape = .exact := by
  induction names with
  | nil => cases h
  | cons first names ih =>
    unfold plainly at h
    rw [List.map_cons, List.lookup_cons] at h
    split at h
    · exact (Option.some.inj h).symm
    · exact ih h

/-- The reader looks at no fields but the known ones. -/
def ReadsFields (known : List (String × Shape)) (read : List (String × Document) → Option α) : Prop :=
  ∀ fields fields', Agree known fields fields' → read fields' = read fields

/-- A reader of fields that keeps to the known ones makes a reader of the record, also of one that stands as
a list. -/
theorem ReadsFields.reads_fieldsOf {read : List (String × Document) → Option α}
    (h : ReadsFields known read) (leniency : Leniency) (names : List String) :
    Reads (.record known) fun d => (fieldsOf leniency names d).bind read := by
  intro d d' hwidened
  obtain ⟨fields, fields', rfl, rfl, hagree⟩ := hwidened.agree
  exact h fields fields' hagree

/-- A reader of fields that keeps to the known ones makes a reader of the record. -/
theorem ReadsFields.reads_recordFields {read : List (String × Document) → Option α}
    (h : ReadsFields known read) : Reads (.record known) fun d => (recordFields d).bind read := by
  intro d d' hwidened
  obtain ⟨fields, fields', rfl, rfl, hagree⟩ := hwidened.agree
  exact h fields fields' hagree

/-- A list is read element by element, so widening an element by its shape makes no difference. -/
theorem Reads.asList {read : Reader α} (h : Reads shape read) : Reads (.list shape) (asList read) := by
  intro d d' hwidened
  cases hwidened with
  | @item _ before after d d' hitem =>
    show (before ++ d' :: after).mapM read = (before ++ d :: after).mapM read
    rw [List.mapM_append, List.mapM_append, List.mapM_cons, List.mapM_cons, h _ _ hitem]

/-! ## Reading back -/

/-- A number below the bound is read back. -/
theorem asNatBelow_ofNat {bound n : Nat} (h : n < bound) : asNatBelow bound (ofNat n) = some n := by
  show (if 0 ≤ (n : Int) ∧ (n : Int).toNat < bound then some (n : Int).toNat else none) = some n
  rw [Int.toNat_natCast, if_pos ⟨Int.natCast_nonneg n, h⟩]

/-- A number of 64 bits is read back. -/
theorem asCount_ofNat {n : Nat} (h : n < powTwo 64) : asCount (ofNat n) = some n := asNatBelow_ofNat h

/-- A number of 32 bits is read back. -/
theorem asWord_ofNat {n : Nat} (h : n < powTwo 32) : asWord (ofNat n) = some n := asNatBelow_ofNat h

/-- A number of 8 bits is read back. -/
theorem asByte_ofNat {n : Nat} (h : n < powTwo 8) : asByte (ofNat n) = some n := asNatBelow_ofNat h

/-- A text that may be absent is read back. -/
theorem asOptional_ofOptionalText (value : Option String) :
    asOptional asText (ofOptionalText value) = some value := by
  cases value <;> rfl

/-- Where each element is read back, the list is. -/
theorem mapM_map {β : Type} {write : α → β} {read : β → Option α} {l : List α}
    (h : ∀ a ∈ l, read (write a) = some a) : (l.map write).mapM read = some l := by
  induction l with
  | nil => rfl
  | cons a l ih =>
    rw [List.map_cons, List.mapM_cons, h a List.mem_cons_self,
      ih fun b hb => h b (List.mem_cons_of_mem a hb)]
    rfl

/-- A list is read back when its elements are. -/
theorem asList_map {write : α → Document} {read : Reader α} {l : List α}
    (h : ∀ a ∈ l, read (write a) = some a) : Document.asList read (.list (l.map write)) = some l :=
  mapM_map h

/-- A list of texts is read back. -/
theorem asList_ofTexts (texts : List String) : Document.asList asText (ofTexts texts) = some texts :=
  asList_map fun _ _ => rfl

/-- A map is read back when its keys and values are: writing keeps the order of the keys, and no two keys
have one text. -/
theorem asMap_entries {κ ν : Type} [Ord κ] [Std.TransOrd κ] [Std.LawfulEqOrd κ] {m : SortedMap κ ν}
    (writeKey : κ → String) {readKey : String → Option κ} (write : ν → Document) {read : Reader ν}
    (hkey : ∀ k, readKey (writeKey k) = some k) (h : ∀ e ∈ m.entries, read (write e.2) = some e.2) :
    asMap readKey read (.record (m.entries.map fun e => (writeKey e.1, write e.2))) = some m := by
  show ((m.entries.map fun e => (writeKey e.1, write e.2)).mapM (readEntry readKey read)).map _ = some m
  rw [mapM_map fun e he => ?_]
  · exact congrArg some (SortedMap.ofList_entries m)
  · unfold readEntry
    rw [hkey, h e he]
    rfl

/-- Labels are read back. -/
theorem asLabels_ofLabels (labels : Labels) : asLabels (ofLabels labels) = some labels :=
  asMap_entries id text (fun _ => rfl) fun _ _ => rfl

end Document

end AddressRegistry
