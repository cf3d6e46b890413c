import Mathlib.Algebra.Group.Int.Defs
import Mathlib.Data.List.Count
import Mathlib.Data.List.Nodup
import Mathlib.Data.List.Perm.Basic
import Mathlib.Data.Nat.Notation
import Mathlib.Logic.Equiv.Defs

/-! JSON values, and records with named fields as derived code writes and reads them: the fields in their
order, and back from an object in any order, or from an array by position. A field that is missing has its
default, unless every field is required; one that is not known is ignored, or refused by a strict record. -/

namespace Records

/-- A JSON value, with the entries of an object as they stand in the text. -/
inductive Json where
  | null
  | bool (b : Bool)
  | int (n : Int)
  | float (literal : String)
  | string (text : String)
  | array (items : List Json)
  | object (entries : List (String × Json))
  deriving Repr

/-- Equal but for the order of the entries, at every level. -/
inductive Json.Same : Json → Json → Prop where
  | refl (j : Json) : Same j j
  | trans {j j' j'' : Json} (h : Same j j') (h' : Same j' j'') : Same j j''
  | perm {obj obj' : List (String × Json)} (h : obj.Perm obj') : Same (.object obj) (.object obj')
  | entry (before after : List (String × Json)) (name : String) {j j' : Json} (h : Same j j') :
      Same (.object (before ++ (name, j) :: after)) (.object (before ++ (name, j') :: after))
  | item (before after : List Json) {j j' : Json} (h : Same j j') :
      Same (.array (before ++ j :: after)) (.array (before ++ j' :: after))

/-- The order of the entries does not matter to `f`. -/
def Stable {β : Type} (f : Json → β) : Prop := ∀ ⦃j j' : Json⦄, j.Same j' → f j = f j'

/-- A way to write values that can be read back. -/
structure Codec (σ : Type) where
  write : σ → Json
  read : Json → Option σ
  read_write : ∀ v, read (write v) = some v

/-- Nothing else is read as a value than what is written for it. -/
def Codec.Exact {σ : Type} (c : Codec σ) : Prop := ∀ j v, c.read j = some v → j = c.write v

/-- A field of `α`. -/
structure Member (α : Type) where
  σ : Type
  name : String
  codec : Codec σ
  get : α → σ
  set : σ → α → α
  get_set : ∀ v a, get (set v a) = v

variable {α : Type}

/-- Neither field is touched when the other is set. -/
def Member.Apart (f g : Member α) : Prop :=
  (∀ v a, f.get (g.set v a) = f.get a) ∧ ∀ v a, g.get (f.set v a) = g.get a

/-- The entry that is written for a field. -/
def Member.entry (f : Member α) (a : α) : String × Json := (f.name, f.codec.write (f.get a))

/-- A record: its fields, the defaults of those that are missing, and how strictly it is read. -/
structure Record (α : Type) where
  fields : List (Member α)
  base : α
  required : Bool
  strict : Bool
  names : (fields.map Member.name).Nodup
  apart : fields.Pairwise Member.Apart
  ext : ∀ a b, (∀ f ∈ fields, f.get a = f.get b) → a = b

/-- The values that stand under a name. -/
def values (name : String) (obj : List (String × Json)) : List Json :=
  (obj.filter fun e => e.1 = name).map (·.2)

namespace Record

variable (r : Record α) (obj : List (String × Json))

/-- The entries that are written. -/
def entries (a : α) : List (String × Json) := r.fields.map (·.entry a)

def write (a : α) : Json := .object (r.entries a)

def knows (name : String) : Bool := r.fields.any (·.name = name)

/-- Read the fields `fs` from the entries of an object. No field may stand there twice. -/
def readFields : List (Member α) → α → Option α
  | [], a => some a
  | f :: fs, a =>
      match values f.name obj with
      | [] => if r.required then none else readFields fs a
      | [j] => (f.codec.read j).bind fun v => readFields fs (f.set v a)
      | _ :: _ :: _ => none

def readObject : Option α :=
  if r.strict && !obj.all (r.knows ·.1) then none else r.readFields obj r.fields r.base

/-- Read the fields `fs` from the items of an array, in their order. -/
def readItems : List (Member α) → List Json → α → Option α
  | [], [], a => some a
  | [], _ :: _, _ => none
  | _ :: fs, [], a => if r.required then none else readItems fs [] a
  | f :: fs, j :: js, a => (f.codec.read j).bind fun v => readItems fs js (f.set v a)

def read : Json → Option α
  | .object obj => r.readObject obj
  | .array items => r.readItems r.fields items r.base
  | _ => none

end Record

/-! ### What stands under a name -/

variable {name : String} {obj obj' : List (String × Json)} {j : Json}

theorem values_perm (h : obj.Perm obj') : (values name obj).Perm (values name obj') :=
  (h.filter _).map _

theorem values_eq_singleton_of_perm (h : obj.Perm obj') :
    values name obj = [j] ↔ values name obj' = [j] := by
  constructor
  · intro hvalues
    have hperm : (values name obj).Perm (values name obj') := values_perm h
    rw [hvalues] at hperm
    exact List.singleton_perm.mp hperm |>.symm
  · intro hvalues
    have hperm : (values name obj).Perm (values name obj') := values_perm h
    rw [hvalues] at hperm
    exact List.perm_singleton.mp hperm

theorem mem_values : j ∈ values name obj ↔ (name, j) ∈ obj := by
  simp only [values, List.mem_map, List.mem_filter, decide_eq_true_eq]
  constructor
  · rintro ⟨⟨name', j'⟩, ⟨hmem, rfl⟩, rfl⟩
    exact hmem
  · exact fun hmem => ⟨(name, j), ⟨hmem, rfl⟩, rfl⟩

theorem values_eq_nil_iff : values name obj = [] ↔ name ∉ obj.map (·.1) := by
  rw [List.eq_nil_iff_forall_not_mem]
  simp only [mem_values, List.mem_map, Prod.exists, exists_and_right, exists_eq_right, not_exists]

theorem length_values : (values name obj).length = (obj.map (·.1)).count name := by
  rw [values, List.length_map, ← List.countP_eq_length_filter, List.count, List.countP_map]
  rfl

theorem values_eq_singleton (h : (obj.map (·.1)).Nodup) (hmem : (name, j) ∈ obj) :
    values name obj = [j] := by
  have hlength := List.nodup_iff_count_le_one.mp h name
  rw [← length_values] at hlength
  have hj := mem_values.mpr hmem
  match hvalues : values name obj with
  | [] =>
      rw [hvalues] at hj
      cases hj
  | [j'] =>
      rw [hvalues] at hj
      rw [List.mem_singleton.mp hj]
  | _ :: _ :: _ =>
      rw [hvalues] at hlength
      simp at hlength

/-! ### Reading an object -/

namespace Record

variable {r : Record α} {a b c : α} {fs : List (Member α)} {f g : Member α}

/-- What the object says about a field of `b`: its one value, or nothing and then the default. -/
def Given (r : Record α) (obj : List (String × Json)) (base b : α) (f : Member α) : Prop :=
  (values f.name obj = [] ∧ r.required = false ∧ f.get b = f.get base) ∨
    ∃ j, values f.name obj = [j] ∧ f.codec.read j = some (f.get b)

theorem Given.congr {base : α} (h : r.Given obj base b f) (hbase : f.get a = f.get base) :
    r.Given obj a b f := by
  rcases h with ⟨hnone, hrequired, hget⟩ | hgiven
  · exact .inl ⟨hnone, hrequired, hget.trans hbase.symm⟩
  · exact .inr hgiven

/-- Reading sets each field as it is given, and touches no other one. -/
theorem readFields_given (hapart : fs.Pairwise Member.Apart)
    (h : r.readFields obj fs a = some b) :
    (∀ f ∈ fs, r.Given obj a b f) ∧ ∀ g, (∀ f ∈ fs, f.Apart g) → g.get b = g.get a := by
  induction fs generalizing a with
  | nil =>
      cases h
      exact ⟨nofun, fun _ _ => rfl⟩
  | cons f fs ih =>
      obtain ⟨hf, hfs⟩ := List.pairwise_cons.mp hapart
      have hsame : ∀ g ∈ fs, g.Apart f := fun g hg => (hf g hg).symm
      rw [readFields] at h
      split at h
      · rename_i hnone
        split at h
        · cases h
        · rename_i hrequired
          obtain ⟨hgiven, hframe⟩ := ih hfs h
          refine ⟨List.forall_mem_cons.mpr ⟨.inl ⟨hnone, by simpa using hrequired, ?_⟩, hgiven⟩, ?_⟩
          · exact hframe f hsame
          · exact fun g hg => hframe g fun f' hf' => hg f' (List.mem_cons_of_mem _ hf')
      · rename_i j hone
        obtain ⟨v, hread, hrest⟩ := Option.bind_eq_some_iff.mp h
        obtain ⟨hgiven, hframe⟩ := ih hfs hrest
        refine ⟨List.forall_mem_cons.mpr ⟨.inr ⟨j, hone, ?_⟩, fun g hg => ?_⟩, fun g hg => ?_⟩
        · rw [hread, hframe f hsame, f.get_set]
        · exact (hgiven g hg).congr ((hf g hg).2 v a).symm
        · rw [hframe g fun f' hf' => hg f' (List.mem_cons_of_mem _ hf')]
          exact (hg f List.mem_cons_self).2 v a
      · cases h

theorem readFields_isSome (hapart : fs.Pairwise Member.Apart)
    (h : ∀ f ∈ fs, r.Given obj a c f) : ∃ b, r.readFields obj fs a = some b := by
  induction fs generalizing a with
  | nil => exact ⟨a, rfl⟩
  | cons f fs ih =>
      obtain ⟨hf, hfs⟩ := List.pairwise_cons.mp hapart
      obtain ⟨hgiven, hrest⟩ := List.forall_mem_cons.mp h
      rcases hgiven with ⟨hnone, hrequired, _⟩ | ⟨j, hone, hread⟩
      · obtain ⟨b, hb⟩ := ih hfs hrest
        refine ⟨b, ?_⟩
        rw [readFields, hnone]
        simpa [hrequired] using hb
      · obtain ⟨b, hb⟩ := ih (a := f.set (f.get c) a) hfs fun g hg =>
          (hrest g hg).congr ((hf g hg).2 _ a)
        refine ⟨b, ?_⟩
        rw [readFields, hone]
        simpa [hread] using hb

/-- What is read from an object: it has no unknown name if the record is strict, and gives every field. -/
theorem readObject_eq_some_iff : r.readObject obj = some b ↔
    (r.strict → ∀ e ∈ obj, r.knows e.1) ∧ ∀ f ∈ r.fields, r.Given obj r.base b f := by
  have hfields : r.readFields obj r.fields r.base = some b ↔
      ∀ f ∈ r.fields, r.Given obj r.base b f := by
    refine ⟨fun h => (readFields_given r.apart h).1, fun h => ?_⟩
    obtain ⟨b', hb'⟩ := readFields_isSome r.apart h
    rw [hb']
    refine congrArg some (r.ext _ _ fun f hf => ?_)
    rcases (readFields_given r.apart hb').1 f hf with ⟨hnone, _, hget⟩ | ⟨j, hone, hread⟩
    · rcases h f hf with ⟨_, _, hget'⟩ | ⟨j, hone, _⟩
      · exact hget.trans hget'.symm
      · rw [hnone] at hone
        cases hone
    · rcases h f hf with ⟨hnone, _, _⟩ | ⟨j', hone', hread'⟩
      · rw [hnone] at hone
        cases hone
      · rw [hone] at hone'
        cases hone'
        exact Option.some.inj (hread.symm.trans hread')
  rw [readObject, ← hfields]
  by_cases hstrict : r.strict && !obj.all (r.knows ·.1)
  · rw [if_pos hstrict]
    simp only [Bool.and_eq_true, Bool.not_eq_true', ← Bool.not_eq_true, List.all_eq_true] at hstrict
    exact iff_of_false (by simp) fun h => hstrict.2 (h.1 hstrict.1)
  · rw [if_neg hstrict]
    simp only [Bool.and_eq_true, Bool.not_eq_true', ← Bool.not_eq_true, List.all_eq_true,
      not_and, not_not] at hstrict
    exact (and_iff_right hstrict).symm

/-- The order of the entries does not matter. -/
theorem readObject_perm (h : obj.Perm obj') : r.readObject obj = r.readObject obj' := by
  refine Option.ext fun b => ?_
  have hgiven : ∀ f : Member α, r.Given obj r.base b f ↔ r.Given obj' r.base b f := by
    intro f
    have hnil : values f.name obj = [] ↔ values f.name obj' = [] := by
      rw [values_eq_nil_iff, values_eq_nil_iff, (h.map _).mem_iff]
    simp only [Given, hnil, values_eq_singleton_of_perm h]
  simp only [readObject_eq_some_iff, hgiven, h.mem_iff]

theorem keys_entries (a : α) : (r.entries a).map (·.1) = r.fields.map Member.name := by
  rw [entries, List.map_map]
  rfl

theorem values_entries (hf : f ∈ r.fields) : values f.name (r.entries a) = [f.codec.write (f.get a)] :=
  values_eq_singleton (by rw [keys_entries]; exact r.names) (List.mem_map_of_mem (f := (·.entry a)) hf)

/-- What is written is read back. -/
theorem readObject_entries (a : α) : r.readObject (r.entries a) = some a := by
  refine readObject_eq_some_iff.mpr ⟨fun _ e he => ?_, fun f hf =>
    .inr ⟨_, values_entries hf, f.codec.read_write _⟩⟩
  obtain ⟨f, hf, rfl⟩ := List.mem_map.mp he
  exact List.any_eq_true.mpr ⟨f, hf, by simp [Member.entry]⟩

/-- A strict record with defaults for all of its fields is read from just the entries that would be written
for it, in any order, less some that would be written for the defaults. -/
theorem readObject_exact_iff (hexact : ∀ f ∈ r.fields, f.codec.Exact) (hstrict : r.strict)
    (hrequired : r.required = false) : r.readObject obj = some a ↔
      (obj.map (·.1)).Nodup ∧ obj ⊆ r.entries a ∧
        ∀ f ∈ r.fields, f.name ∉ obj.map (·.1) → f.get a = f.get r.base := by
  rw [readObject_eq_some_iff]
  constructor
  · rintro ⟨hknown, hgiven⟩
    refine ⟨?_, ?_, fun f hf hmissing => ?_⟩
    · refine List.nodup_iff_count_le_one.mpr fun name => ?_
      rw [← length_values]
      by_cases hname : values name obj = []
      · rw [hname]
        exact Nat.zero_le 1
      · obtain ⟨e, he, rfl⟩ := List.mem_map.mp (not_not.mp (mt values_eq_nil_iff.mpr hname))
        obtain ⟨f, hf, hfname⟩ := List.any_eq_true.mp (hknown hstrict e he)
        rw [← of_decide_eq_true hfname] at hname ⊢
        rcases hgiven f hf with ⟨hnone, _, _⟩ | ⟨j, hone, _⟩
        · exact absurd hnone hname
        · rw [hone]
          exact Nat.le_refl 1
    · rintro ⟨name, j⟩ he
      obtain ⟨f, hf, hfname⟩ := List.any_eq_true.mp (hknown hstrict _ he)
      obtain rfl : f.name = name := of_decide_eq_true hfname
      have hj := mem_values.mpr he
      rcases hgiven f hf with ⟨hnone, _, _⟩ | ⟨j', hone, hread⟩
      · rw [hnone] at hj
        cases hj
      · rw [hone, List.mem_singleton] at hj
        subst hj
        rw [hexact f hf _ _ hread]
        exact List.mem_map_of_mem (f := (·.entry a)) hf
    · rcases hgiven f hf with ⟨_, _, hget⟩ | ⟨j, hone, _⟩
      · exact hget
      · rw [← values_eq_nil_iff, hone] at hmissing
        cases hmissing
  · rintro ⟨hnodup, hsub, hmissing⟩
    refine ⟨fun _ e he => ?_, fun f hf => ?_⟩
    · obtain ⟨f, hf, rfl⟩ := List.mem_map.mp (hsub he)
      exact List.any_eq_true.mpr ⟨f, hf, by simp [Member.entry]⟩
    · by_cases hname : f.name ∈ obj.map (·.1)
      · obtain ⟨⟨name, j⟩, he, rfl⟩ := List.mem_map.mp hname
        have hwritten := mem_values.mpr (hsub he)
        rw [values_entries hf, List.mem_singleton] at hwritten
        refine .inr ⟨j, values_eq_singleton hnodup he, ?_⟩
        rw [hwritten]
        exact f.codec.read_write _
      · exact .inl ⟨values_eq_nil_iff.mpr hname, hrequired, hmissing f hf hname⟩

end Record

/-- A record of one field, which is required. -/
def Record.single (name : String) (c : Codec α) (base : α) : Record α where
  fields := [⟨α, name, c, id, fun v _ => v, fun _ _ => rfl⟩]
  base := base
  required := true
  strict := false
  names := List.nodup_singleton _
  apart := List.pairwise_singleton _ _
  ext _ _ h := h _ (List.mem_singleton_self _)

theorem Record.readObject_single_iff {c : Codec α} {base a : α} :
    (single name c base).readObject obj = some a ↔ ∃ j, values name obj = [j] ∧ c.read j = some a := by
  rw [readObject_eq_some_iff]
  constructor
  · rintro ⟨_, hgiven⟩
    rcases hgiven _ (List.mem_singleton_self _) with ⟨_, hrequired, _⟩ | hone
    · cases hrequired
    · exact hone
  · intro hone
    refine ⟨fun hstrict => (by cases hstrict), fun f hf => ?_⟩
    cases List.mem_singleton.mp hf
    exact .inr hone

/-! ### Codecs -/

namespace Codec

variable {σ τ : Type}

def string : Codec String where
  write := .string
  read
    | .string text => some text
    | _ => none
  read_write _ := rfl

def bool : Codec Bool where
  write := .bool
  read
    | .bool b => some b
    | _ => none
  read_write _ := rfl

/-- An unsigned integer of 64 bits. -/
def u64 : Codec UInt64 where
  write v := .int v.toNat
  read
    | .int n => if 0 ≤ n ∧ n < 2 ^ 64 then some (UInt64.ofNat n.toNat) else none
    | _ => none
  read_write v := by
    have hlt : v.toNat < 2 ^ 64 := v.toNat_lt
    show (if 0 ≤ (v.toNat : Int) ∧ (v.toNat : Int) < 2 ^ 64 then some (UInt64.ofNat _) else none) = _
    rw [if_pos (by omega), Int.toNat_natCast, UInt64.ofNat_toNat]

/-- Read all of the values. -/
def readAll (read : Json → Option σ) : List Json → Option (List σ)
  | [] => some []
  | j :: js => (read j).bind fun v => (readAll read js).map (v :: ·)

theorem readAll_map {c : Codec σ} (vs : List σ) : readAll c.read (vs.map c.write) = some vs := by
  induction vs with
  | nil => rfl
  | cons v vs ih => rw [List.map_cons, readAll, c.read_write, Option.bind_some, ih, Option.map_some]

def list (c : Codec σ) : Codec (List σ) where
  write vs := .array (vs.map c.write)
  read
    | .array items => readAll c.read items
    | _ => none
  read_write := readAll_map

/-- Another view of the same values. -/
def via (c : Codec σ) (e : τ ≃ σ) : Codec τ where
  write v := c.write (e v)
  read j := (c.read j).map e.symm
  read_write v := by rw [c.read_write, Option.map_some, e.symm_apply_apply]

def ofRecord (r : Record σ) : Codec σ := ⟨r.write, r.read, r.readObject_entries⟩

theorem exact_string : string.Exact := by
  intro j v h
  cases j <;> cases h
  rfl

theorem exact_u64 : u64.Exact := by
  intro j v h
  cases j with
  | int n =>
      simp only [u64] at h
      split at h
      · rename_i hn
        cases h
        show Json.int n = .int ((UInt64.ofNat n.toNat).toNat)
        rw [UInt64.toNat_ofNat_of_lt' (by simp only [UInt64.size]; omega), Int.toNat_of_nonneg hn.1]
      · cases h
  | _ => cases h

theorem exact_list {c : Codec σ} (hc : c.Exact) : (list c).Exact := by
  intro j vs h
  cases j with
  | array items =>
      refine congrArg Json.array ?_
      replace h : readAll c.read items = some vs := h
      induction items generalizing vs with
      | nil =>
          cases h
          rfl
      | cons j js ih =>
          obtain ⟨v, hv, hrest⟩ := Option.bind_eq_some_iff.mp h
          obtain ⟨vs', hvs', rfl⟩ := Option.map_eq_some_iff.mp hrest
          rw [hc j v hv, ih _ hvs', List.map_cons]
  | _ => cases h

theorem exact_via {c : Codec σ} (hc : c.Exact) (e : τ ≃ σ) : (c.via e).Exact := by
  intro j v h
  obtain ⟨w, hw, rfl⟩ := Option.map_eq_some_iff.mp h
  rw [hc j w hw]
  exact congrArg c.write (e.apply_symm_apply w).symm

end Codec

/-! ### Enumerations with an internal tag -/

/-- The name of the variant, which stands under the tag or at the head of an array, and the rest. -/
def tagged (tag : String) : Json → Option (String × Json)
  | .object obj =>
      match values tag obj with
      | [.string name] => some (name, .object (obj.filter fun e => e.1 ≠ tag))
      | _ => none
  | .array (.string name :: items) => some (name, .array items)
  | _ => none

/-- An enumeration, given how the rest is read for each of its variants. -/
def readTagged (tag : String) (variants : List (String × (Json → Option α))) (j : Json) : Option α :=
  (tagged tag j).bind fun variant => (variants.lookup variant.1).bind fun read => read variant.2

/-- A variant without fields takes any object, and the empty array. -/
def readUnit (a : α) : Json → Option α
  | .object _ | .array [] => some a
  | _ => none

theorem tagged_object_iff {content : Json} : tagged name (.object obj) = some (tag, content) ↔
    values name obj = [.string tag] ∧ content = .object (obj.filter fun e => e.1 ≠ name) := by
  simp only [tagged]
  split
  · rename_i name' hvalues
    rw [hvalues]
    simp [eq_comm]
  · rename_i hvalues
    exact iff_of_false (by simp) fun h => hvalues tag h.1

variable {tag : String} {variants : List (String × (Json → Option α))}

theorem readTagged_object_iff {a : α} : readTagged tag variants (.object obj) = some a ↔
    ∃ name read, values tag obj = [.string name] ∧ variants.lookup name = some read ∧
      read (.object (obj.filter fun e => e.1 ≠ tag)) = some a := by
  constructor
  · intro h
    obtain ⟨⟨name, content⟩, htagged, hrest⟩ := Option.bind_eq_some_iff.mp h
    obtain ⟨read, hvariant, hread⟩ := Option.bind_eq_some_iff.mp hrest
    obtain ⟨hvalues, rfl⟩ := tagged_object_iff.mp htagged
    exact ⟨name, read, hvalues, hvariant, hread⟩
  · rintro ⟨name, read, hvalues, hvariant, hread⟩
    rw [readTagged, tagged_object_iff.mpr ⟨hvalues, rfl⟩, Option.bind_some, hvariant, Option.bind_some]
    exact hread

/-- What stands under the tag, and beside it, in any order of the entries. -/
theorem tagged_of_perm {fields : List (String × Json)} (htag : tag ∉ fields.map (·.1))
    (hobj : obj.Perm ((tag, .string name) :: fields)) :
    values tag obj = [.string name] ∧ (obj.filter fun e => e.1 ≠ tag).Perm fields := by
  have hne : ∀ e ∈ fields, e.1 ≠ tag := fun e he htag' => htag (List.mem_map.mpr ⟨e, he, htag'⟩)
  constructor
  · rw [values_eq_singleton_of_perm hobj, values, List.filter_cons_of_pos (by simp),
      List.filter_eq_nil_iff.mpr fun e he => by simpa using hne e he]
    rfl
  · have hfilter := hobj.filter fun e => e.1 ≠ tag
    rwa [List.filter_cons_of_neg (by simp),
      List.filter_eq_self.mpr fun e he => decide_eq_true (hne e he)] at hfilter

/-- A variant without fields is read back. -/
theorem readTagged_unit {a : α} (hvariant : variants.lookup name = some (readUnit a)) :
    readTagged tag variants (.object [(tag, .string name)]) = some a :=
  readTagged_object_iff.mpr ⟨name, _, (tagged_of_perm (by simp) (.refl _)).1, hvariant, rfl⟩

/-- A variant with the fields of a record is read back. -/
theorem readTagged_record {β : Type} {r : Record β} {b : β} {f : β → α}
    (hvariant : variants.lookup name = some fun j => (r.read j).map f)
    (htag : tag ∉ r.fields.map Member.name) :
    readTagged tag variants (.object ((tag, .string name) :: r.entries b)) = some (f b) := by
  rw [← r.keys_entries b] at htag
  obtain ⟨hvalues, hrest⟩ := tagged_of_perm htag (.refl _)
  refine readTagged_object_iff.mpr ⟨name, _, hvalues, hvariant, ?_⟩
  show (r.readObject _).map f = _
  rw [r.readObject_perm hrest, r.readObject_entries, Option.map_some]

/-! ### The order of entries -/

section Stable

variable {β : Type} {g : Json → β}

/-- What has to be checked: another order of the entries, and a change in one entry or in one item. -/
theorem stable_of
    (hperm : ∀ obj obj' : List (String × Json), obj.Perm obj' → g (.object obj) = g (.object obj'))
    (hentry : ∀ before after name j j', Json.Same j j' →
      g (.object (before ++ (name, j) :: after)) = g (.object (before ++ (name, j') :: after)))
    (hitem : ∀ before after j j', Json.Same j j' →
      g (.array (before ++ j :: after)) = g (.array (before ++ j' :: after))) : Stable g := by
  intro j j' h
  induction h with
  | refl j => rfl
  | trans _ _ ih ih' => exact ih.trans ih'
  | perm h => exact hperm _ _ h
  | entry before after name h _ => exact hentry _ _ _ _ _ h
  | item before after h _ => exact hitem _ _ _ _ h

/-- What does not look into objects and arrays. -/
theorem stable_of_flat (hobject : ∀ obj obj', g (.object obj) = g (.object obj'))
    (harray : ∀ items items', g (.array items) = g (.array items')) : Stable g :=
  stable_of (fun _ _ _ => hobject _ _) (fun _ _ _ _ _ _ => hobject _ _) fun _ _ _ _ _ => harray _ _

theorem Json.Same.string_iff {j' : Json} {text : String} (h : j.Same j') :
    j = .string text ↔ j' = .string text := by
  have hstable : Stable fun j : Json => j = .string text := stable_of_flat (by simp) (by simp)
  exact iff_of_eq (hstable h)

theorem Json.Same.null_iff {j' : Json} (h : j.Same j') : j = .null ↔ j' = .null := by
  have hstable : Stable fun j : Json => j = .null := stable_of_flat (by simp) (by simp)
  exact iff_of_eq (hstable h)

theorem Json.Same.empty_iff {j' : Json} (h : j.Same j') : j = .object [] ↔ j' = .object [] := by
  have hstable : Stable fun j : Json => j = .object [] := by
    refine stable_of (fun obj obj' hperm => ?_) (by simp) (by simp)
    rw [Json.object.injEq, Json.object.injEq, ← List.length_eq_zero_iff, hperm.length_eq,
      List.length_eq_zero_iff]
  exact iff_of_eq (hstable h)

namespace Codec

variable {σ τ : Type}

theorem stable_string : Stable string.read := stable_of_flat (fun _ _ => rfl) fun _ _ => rfl

theorem stable_bool : Stable bool.read := stable_of_flat (fun _ _ => rfl) fun _ _ => rfl

theorem stable_u64 : Stable u64.read := stable_of_flat (fun _ _ => rfl) fun _ _ => rfl

theorem stable_list {c : Codec σ} (hc : Stable c.read) : Stable (list c).read := by
  refine stable_of (fun _ _ _ => rfl) (fun _ _ _ _ _ _ => rfl) fun before after j j' h => ?_
  show readAll c.read _ = readAll c.read _
  induction before with
  | nil => rw [List.nil_append, List.nil_append, readAll, readAll, hc h]
  | cons first before ih => rw [List.cons_append, List.cons_append, readAll, readAll, ih]

theorem stable_via {c : Codec σ} (hc : Stable c.read) (e : τ ≃ σ) : Stable (c.via e).read :=
  fun _ _ h => congrArg (Option.map e.symm) (hc h)

end Codec

namespace Record

variable {r : Record α}

theorem readItems_item {fs : List (Member α)} (hfs : ∀ f ∈ fs, Stable f.codec.read) {j j' : Json}
    (h : j.Same j') (before after : List Json) (a : α) :
    r.readItems fs (before ++ j :: after) a = r.readItems fs (before ++ j' :: after) a := by
  induction fs generalizing before a with
  | nil => cases before <;> rfl
  | cons f fs ih =>
      obtain ⟨hf, hrest⟩ := List.forall_mem_cons.mp hfs
      cases before with
      | nil => rw [List.nil_append, List.nil_append, readItems, readItems, hf h]
      | cons first before =>
          rw [List.cons_append, List.cons_append, readItems, readItems]
          exact congrArg _ (funext fun v => ih hrest before _)

/-- The values under a name when one entry changes. -/
theorem values_entry (before after : List (String × Json)) (name name' : String) (j : Json) :
    values name' (before ++ (name, j) :: after) =
      values name' before ++ (if name = name' then [j] else []) ++ values name' after := by
  simp only [values, List.filter_append, List.map_append, List.filter_cons]
  split_ifs <;> simp_all

theorem readFields_entry {fs : List (Member α)} (hfs : ∀ f ∈ fs, Stable f.codec.read) {j j' : Json}
    (h : j.Same j') (before after : List (String × Json)) (name : String) (a : α) :
    r.readFields (before ++ (name, j) :: after) fs a = r.readFields (before ++ (name, j') :: after) fs a := by
  induction fs generalizing a with
  | nil => rfl
  | cons f fs ih =>
      obtain ⟨hf, hrest⟩ := List.forall_mem_cons.mp hfs
      rw [readFields, readFields, values_entry, values_entry]
      by_cases hname : name = f.name
      · rw [if_pos hname, if_pos hname]
        cases values f.name before with
        | nil =>
            cases values f.name after with
            | nil =>
                show (f.codec.read j).bind _ = (f.codec.read j').bind _
                rw [hf h]
                exact congrArg _ (funext fun v => ih hrest _)
            | cons _ _ => rfl
        | cons _ earlier => cases earlier <;> rfl
      · rw [if_neg hname, if_neg hname]
        split
        · rw [ih hrest]
        · exact congrArg _ (funext fun v => ih hrest _)
        · rfl

/-- A record whose fields do not mind the order of entries does not mind it either. -/
theorem stable_read (hfields : ∀ f ∈ r.fields, Stable f.codec.read) : Stable r.read := by
  refine stable_of (fun _ _ h => r.readObject_perm h) (fun before after name j j' h => ?_)
    fun before after j j' h => readItems_item hfields h before after _
  show r.readObject _ = r.readObject _
  rw [readObject, readObject, readFields_entry hfields h, List.all_append, List.all_append,
    List.all_cons, List.all_cons]

theorem stable_single {name : String} {c : Codec α} (base : α) (hc : Stable c.read) :
    Stable (single name c base).read :=
  stable_read fun f hf => by
    rw [List.mem_singleton.mp hf]
    exact hc

end Record

theorem stable_readUnit (a : α) : Stable (readUnit a) := by
  refine stable_of (fun _ _ _ => rfl) (fun _ _ _ _ _ _ => rfl) fun before after j j' _ => ?_
  cases before <;> rfl

theorem readTagged_object_congr {obj' : List (String × Json)}
    (hvariants : ∀ v ∈ variants, Stable v.2)
    (hvalues : ∀ name, values tag obj = [.string name] ↔ values tag obj' = [.string name])
    (hrest : (Json.object (obj.filter fun e => e.1 ≠ tag)).Same
      (.object (obj'.filter fun e => e.1 ≠ tag))) :
    readTagged tag variants (.object obj) = readTagged tag variants (.object obj') := by
  refine Option.ext fun a => ?_
  rw [readTagged_object_iff, readTagged_object_iff]
  refine exists_congr fun name => exists_congr fun read => ?_
  rw [hvalues]
  refine and_congr_right fun _ => and_congr_right fun hvariant => ?_
  obtain ⟨before, after, hsplit, -⟩ := List.lookup_eq_some_iff.mp hvariant
  have hread : Stable read := hvariants (name, read) (by
    rw [hsplit]
    exact List.mem_append_right _ List.mem_cons_self)
  rw [hread hrest]

/-- An enumeration does not mind the order of entries if its variants do not. -/
theorem stable_readTagged (hvariants : ∀ v ∈ variants, Stable v.2) : Stable (readTagged tag variants) := by
  refine stable_of (fun obj obj' h => ?_) (fun before after name j j' h => ?_) fun before after j j' h => ?_
  · exact readTagged_object_congr hvariants (fun _ => values_eq_singleton_of_perm h) (.perm (h.filter _))
  · refine readTagged_object_congr hvariants (fun variant => ?_) ?_
    · rw [Record.values_entry, Record.values_entry]
      split_ifs
      · cases values tag before <;> cases values tag after <;> simp [h.string_iff]
      · rfl
    · rw [List.filter_append, List.filter_append, List.filter_cons, List.filter_cons]
      split_ifs
      · exact .entry _ _ _ h
      · exact .refl _
  · cases before with
    | nil =>
        by_cases hstring : ∃ text, j = .string text
        · obtain ⟨text, rfl⟩ := hstring
          rw [h.string_iff.mp rfl]
        · have hother : ∀ j : Json, (¬∃ text, j = .string text) → tagged tag (.array (j :: after)) = none := by
            intro j hj
            unfold tagged
            split
            · rename_i heq
              cases heq
            · rename_i heq
              cases heq
              exact absurd ⟨_, rfl⟩ hj
            · rfl
          have hstring' : ¬∃ text, j' = .string text :=
            fun ⟨text, htext⟩ => hstring ⟨text, h.string_iff.mpr htext⟩
          rw [List.nil_append, List.nil_append, readTagged, readTagged, hother j hstring, hother j' hstring']
    | cons first before =>
        cases first with
        | string text =>
            show (variants.lookup text).bind _ = (variants.lookup text).bind _
            cases hvariant : variants.lookup text with
            | none => rfl
            | some read =>
                obtain ⟨_, _, hsplit, -⟩ := List.lookup_eq_some_iff.mp hvariant
                have hread : Stable read := hvariants (text, read) (by
                  rw [hsplit]
                  exact List.mem_append_right _ List.mem_cons_self)
                exact hread (.item before after h)
        | _ => rfl

end Stable

end Records
