import SharpSource.Proofs.SharedArrays
import SharpSource.Stored

/-!
# Sharing is not observed

Equality of what is in storage stops at places, and never looks at what is
stored there. This module shows that it comes to the same: equality of two
descriptions in storage is equality of the two that they stand for, and they
have the tokens of these (`StoredDesc.beq_eq`, `StoredDesc.fingerprint_eq`). The
first is an induction on a description that lives in memory, where arrays at one
place are one list.

So the laws of equality hold in storage as they do for the values
(`Represents.lawfulKey`), and it makes no difference which arrays are copies of
one another, nor which names are remembered and by which copy
(`StoredDesc.represents`).
-/

namespace SharpSource

/-! ### What is in storage -/

/-- **Values are represented** when equality of what stands for them is their
equality, as long as it lives, and its tokens are theirs. -/
structure Represents {σ α : Type} [BEq α] (Lives : σ → Prop) (value : σ → α) (eq : σ → σ → Bool)
    (fingerprint : σ → List HashToken) (fingerprint' : α → List HashToken) : Prop where
  beq : ∀ a b, Lives a → Lives b → eq a b = (value a == value b)
  fingerprint : ∀ a, fingerprint a = fingerprint' (value a)

/-- The laws of equality hold in storage when they hold for the values. -/
theorem Represents.lawfulKey {σ α : Type} [BEq α] {Lives : σ → Prop} {value : σ → α}
    {eq : σ → σ → Bool} {fingerprint : σ → List HashToken} {fingerprint' : α → List HashToken}
    (h : Represents Lives value eq fingerprint fingerprint')
    (hkey : LawfulKey (fun _ => True) (· == ·) fingerprint') :
    LawfulKey Lives eq fingerprint := by
  constructor
  case refl =>
    intro a ha
    rw [h.beq a a ha ha]
    exact hkey.refl _ trivial
  case symm =>
    intro a b ha hb hab
    rw [h.beq a b ha hb] at hab
    rw [h.beq b a hb ha]
    exact hkey.symm _ _ trivial trivial hab
  case trans =>
    intro a b c ha hb hc hab hbc
    rw [h.beq a b ha hb] at hab
    rw [h.beq b c hb hc] at hbc
    rw [h.beq a c ha hc]
    exact hkey.trans _ _ _ trivial trivial trivial hab hbc
  case fingerprint =>
    intro a b ha hb hab
    rw [h.beq a b ha hb] at hab
    rw [h.fingerprint, h.fingerprint]
    exact hkey.fingerprint _ _ trivial trivial hab

variable {m : Memory}

/-! ### Members -/

namespace StoredMember

theorem beq_eq {a b : StoredMember} (ha : a.LivesIn m) (hb : b.LivesIn m) :
    a.beq b = (a.value == b.value) := by
  rw [StoredMember.beq, SharedArray.texts_beqWith_eq ha hb]
  change _ = instBEqMember.beq a.value b.value
  simp only [value, instBEqMember.beq, Bool.and_assoc]

theorem fingerprint_eq (a : StoredMember) : a.fingerprint = a.value.fingerprint := rfl

theorem represents (m : Memory) :
    Represents (LivesIn m) value StoredMember.beq fingerprint Member.fingerprint :=
  ⟨fun _ _ => beq_eq, fingerprint_eq⟩

theorem LivesIn.grow {m' : Memory} {a : StoredMember} (ha : a.LivesIn m) (hgrows : m.Grows m') :
    a.LivesIn m' :=
  SharedArray.LivesIn.grow ha hgrows.texts

end StoredMember

/-! ### Descriptions -/

namespace StoredDesc

theorem listValues_eq_map (ds : List StoredDesc) : listValues ds = ds.map value := by
  induction ds with
  | nil => rfl
  | cons d ds ih => rw [listValues, ih, List.map_cons]

theorem arrayValues_eq_map (a : SharedArray StoredDesc) :
    arrayValues a = a.elements.map value := by
  cases a with
  | empty => rfl
  | stored p ds => exact listValues_eq_map ds

theorem beqList_eq_isEqv (ds ds' : List StoredDesc) :
    beqList ds ds' = ds.isEqv ds' StoredDesc.beq := by
  induction ds generalizing ds' with
  | nil => cases ds' <;> rfl
  | cons d ds ih =>
    cases ds' with
    | nil => rfl
    | cons d' ds' => rw [beqList, ih, List.isEqv_cons_cons]

/-- Arrays of descriptions are compared as arrays are. -/
theorem beqArray_eq_beqWith (a a' : SharedArray StoredDesc) :
    beqArray a a' = a.beqWith StoredDesc.beq a' := by
  cases a with
  | empty =>
    cases a' with
    | empty => rfl
    | stored q ds' => cases ds' <;> rfl
  | stored p ds =>
    cases a' with
    | empty => exact beqList_eq_isEqv ds []
    | stored q ds' => rw [beqArray, SharedArray.beqWith, beqList_eq_isEqv]

theorem beqList_value (ds ds' : List TypeDesc) :
    TypeDesc.beqList ds ds' = (ds == ds') := by
  induction ds generalizing ds' with
  | nil => cases ds' <;> rfl
  | cons d ds ih =>
    cases ds' with
    | nil => rfl
    | cons d' ds' =>
      rw [TypeDesc.beqList, ih, List.cons_beq_cons]
      rfl

/-- **Equality of descriptions in storage** is equality of the descriptions. The
induction is on the one that lives in memory: what its arrays hold has been
compared already, and where it is not looked at, at one place, it is the
same. -/
theorem beq_eq {d d' : StoredDesc} (h : d.LivesIn m) (h' : d'.LivesIn m) :
    d.beq d' = (d.value == d'.value) := by
  induction h generalizing d' with
  | @mk d hattributes hmembers hofMembers harrays hinside ih =>
    obtain ⟨hattributes', hmembers', hofMembers', harrays', hinside'⟩ := h'
    have harray : ∀ a ∈ d.arrays, ∀ a' ∈ d'.arrays,
        beqArray a a' = TypeDesc.beqList (arrayValues a) (arrayValues a') := by
      intro a ha a' ha'
      rw [beqArray_eq_beqWith, beqList_value, arrayValues_eq_map, arrayValues_eq_map]
      exact SharedArray.beqWith_eq (harrays a ha) (harrays' a' ha')
        fun x hx y hy => ih a ha x hx (hinside' a' ha' y hy)
    have hmember : d.members.beqWith StoredMember.beq d'.members =
        (d.members.elements.map StoredMember.value ==
          d'.members.elements.map StoredMember.value) :=
      SharedArray.beqWith_eq hmembers hmembers' fun x hx y hy =>
        StoredMember.beq_eq (hofMembers x hx) (hofMembers' y hy)
    have hattribute := SharedArray.texts_beqWith_eq hattributes hattributes'
    have hbases := harray d.bases (by simp [arrays]) d'.bases (by simp [arrays])
    have hinterfaces := harray d.interfaces (by simp [arrays]) d'.interfaces (by simp [arrays])
    have hgenerics := harray d.generics (by simp [arrays]) d'.generics (by simp [arrays])
    have hcontaining := harray d.containing (by simp [arrays]) d'.containing (by simp [arrays])
    rcases d with ⟨⟩
    rcases d' with ⟨⟩
    rw [StoredDesc.beq, hattribute, hmember, hbases, hinterfaces, hgenerics, hcontaining]
    change _ = TypeDesc.beq _ _
    rw [value, value, TypeDesc.beq]
    change _ = (instBEqTypeFacts.beq _ _ && _ && _ && _ && _)
    simp only [instBEqTypeFacts.beq]
    ac_rfl

mutual

theorem fingerprint_eq : ∀ d : StoredDesc, d.fingerprint = d.value.fingerprint
  | ⟨_, _, _, _, _, _, _, _, _, _, _, _, attributes, bases, interfaces, generics, containing,
      members, _⟩ => by
    have hmembers : members.fingerprintWith StoredMember.fingerprint =
        fingerprintList Member.fingerprint (members.elements.map StoredMember.value) :=
      SharedArray.fingerprintWith_eq StoredMember.fingerprint_eq members
    rw [fingerprint, fingerprintArray_eq bases, fingerprintArray_eq interfaces,
      fingerprintArray_eq generics, fingerprintArray_eq containing, hmembers]
    rfl

theorem fingerprintArray_eq : ∀ a : SharedArray StoredDesc,
    fingerprintArray a =
      .count (arrayValues a).length :: TypeDesc.fingerprintItems (arrayValues a)
  | .empty => rfl
  | .stored _ ds => by
    rw [fingerprintArray, arrayValues, fingerprintItems_eq ds, listValues_eq_map, List.length_map]

theorem fingerprintItems_eq : ∀ ds : List StoredDesc,
    fingerprintItems ds = TypeDesc.fingerprintItems (listValues ds)
  | [] => rfl
  | d :: ds => by
    rw [fingerprintItems, listValues, TypeDesc.fingerprintItems, fingerprint_eq d,
      fingerprintItems_eq ds]

end

theorem represents (m : Memory) : Represents (LivesIn m) (fun d => d.value.forgetAll)
    StoredDesc.beq fingerprint TypeDesc.fingerprint where
  beq d d' hd hd' := (beq_eq hd hd').trans (TypeDesc.beq_forgetAll d.value d'.value).symm
  fingerprint d := d.fingerprint_eq.trans d.value.fingerprint_forgetAll.symm

theorem LivesIn.grow {m' : Memory} {d : StoredDesc} (hd : d.LivesIn m) (hgrows : m.Grows m') :
    d.LivesIn m' := by
  induction hd with
  | mk hattributes hmembers hofMembers harrays _ ih =>
    constructor
    case attributes => exact hattributes.grow hgrows.texts
    case members => exact hmembers.grow hgrows.members
    case ofMembers => exact fun a ha => (hofMembers a ha).grow hgrows
    case arrays => exact fun a ha => (harrays a ha).grow hgrows.descs
    case inside => exact ih

end StoredDesc

/-! ### Descriptors and specifications -/

namespace StoredDescriptor

/-- Descriptors that share their description are equal, as they are when they do
not. -/
theorem beq_eq {t u : StoredDescriptor} (ht : t.LivesIn m) (hu : u.LivesIn m) :
    t.beq u = (t.value == u.value) := by
  cases t with
  | desc p d =>
    cases u with
    | desc q d' =>
      obtain ⟨hplace, hd⟩ := ht
      obtain ⟨hplace', hd'⟩ := hu
      change (p == q || d.beq d') = (d.value == d'.value)
      rw [StoredDesc.beq_eq hd hd']
      by_cases hpq : p = q
      · subst hpq
        obtain rfl : d = d' := Option.some.inj (hplace.symm.trans hplace')
        rw [beq_self_eq_true, Bool.true_or]
        exact BEq.rfl.symm
      · rw [beq_false_of_ne hpq, Bool.false_or]
    | ref t' => rfl
  | ref t =>
    cases u with
    | desc q d' => rfl
    | ref t' => rfl

theorem fingerprint_eq (t : StoredDescriptor) : t.fingerprint = t.value.fingerprint := by
  cases t with
  | desc p d =>
    rw [fingerprint, d.fingerprint_eq]
    rfl
  | ref t => rfl

theorem represents (m : Memory) : Represents (LivesIn m) (fun t => t.value.forgetAll)
    StoredDescriptor.beq fingerprint Descriptor.fingerprint where
  beq t u ht hu := (beq_eq ht hu).trans (Descriptor.beq_forgetAll t.value u.value).symm
  fingerprint t := t.fingerprint_eq.trans t.value.fingerprint_forgetAll.symm

theorem LivesIn.grow {m' : Memory} {t : StoredDescriptor} (ht : t.LivesIn m)
    (hgrows : m.Grows m') : t.LivesIn m' := by
  cases t with
  | desc p d =>
    obtain ⟨hplace, hd⟩ := ht
    obtain ⟨more, hmore⟩ := hgrows.shared
    have hp : p < m.shared.length := (List.getElem?_eq_some_iff.mp hplace).1
    refine ⟨?_, hd.grow hgrows⟩
    rw [← hmore, List.getElem?_append_left hp, hplace]
  | ref t => trivial

end StoredDescriptor

namespace StoredSpec

theorem beq_eq {a b : StoredSpec} (ha : a.LivesIn m) (hb : b.LivesIn m) :
    a.beq b = (a.value == b.value) := by
  have hmembers : a.members.beqWith StoredMember.beq b.members =
      (a.members.elements.map StoredMember.value == b.members.elements.map StoredMember.value) :=
    SharedArray.beqWith_eq ha.members hb.members fun x hx y hy =>
      StoredMember.beq_eq (ha.ofMembers x hx) (hb.ofMembers y hy)
  have hothers : a.others.beqWith StoredDescriptor.beq b.others =
      (a.others.elements.map StoredDescriptor.value ==
        b.others.elements.map StoredDescriptor.value) :=
    SharedArray.beqWith_eq ha.others hb.others fun x hx y hy =>
      StoredDescriptor.beq_eq (ha.ofOthers x hx) (hb.ofOthers y hy)
  rw [StoredSpec.beq, SharedArray.texts_beqWith_eq ha.declarations hb.declarations,
    SharedArray.texts_beqWith_eq ha.attributes hb.attributes,
    StoredDescriptor.beq_eq ha.target hb.target, hmembers, hothers]
  change _ = instBEqTypeSpec.beq a.value b.value
  simp only [value, instBEqTypeSpec.beq, Bool.and_assoc]

theorem fingerprint_eq (s : StoredSpec) : s.fingerprint = s.value.fingerprint := by
  rw [fingerprint, s.target.fingerprint_eq,
    SharedArray.fingerprintWith_eq StoredMember.fingerprint_eq s.members,
    SharedArray.fingerprintWith_eq StoredDescriptor.fingerprint_eq s.others]
  rfl

theorem represents (m : Memory) : Represents (LivesIn m) (fun s => s.value.forgetAll)
    StoredSpec.beq fingerprint TypeSpec.fingerprint where
  beq a b ha hb := (beq_eq ha hb).trans (TypeSpec.beq_forgetAll a.value b.value).symm
  fingerprint s := s.fingerprint_eq.trans s.value.fingerprint_forgetAll.symm

theorem LivesIn.grow {m' : Memory} {s : StoredSpec} (hs : s.LivesIn m) (hgrows : m.Grows m') :
    s.LivesIn m' where
  declarations := hs.declarations.grow hgrows.texts
  target := hs.target.grow hgrows
  attributes := hs.attributes.grow hgrows.texts
  members := hs.members.grow hgrows.members
  ofMembers a ha := (hs.ofMembers a ha).grow hgrows
  others := hs.others.grow hgrows.descriptors
  ofOthers t ht := (hs.ofOthers t ht).grow hgrows

end StoredSpec

/-! ### The laws of equality -/

/-- **Equality and hashing are lawful.** References, members, descriptions,
descriptors and specifications are lawful keys, and so they are in storage.
There, equality and tokens are those of the values with nothing remembered
anywhere: neither the places of arrays and descriptions count, nor the names
that have been read. Arrays of lawful keys are lawful keys, and two of them are
equal exactly when they have the same length and equal elements in order; an
array is empty exactly when its length is zero. All that is made lives in
storage, and lives on as more is made. -/
theorem equality_lawful :
    -- Values, and values with names that have been read.
    (LawfulKey (fun _ => True) (· == ·) TypeRef.fingerprint ∧
      LawfulKey (fun _ => True) (· == ·) Member.fingerprint ∧
      LawfulKey (fun _ => True) (· == ·) TypeDesc.fingerprint ∧
      LawfulKey (fun _ => True) (· == ·) Descriptor.fingerprint ∧
      LawfulKey (fun _ => True) (· == ·) TypeSpec.fingerprint) ∧
    ((∀ d : TypeDesc, d.rememberTypeName.forgetAll = d.forgetAll ∧
        d.rememberAssemblyName.forgetAll = d.forgetAll) ∧
      Represents (fun _ => True) TypeDesc.forgetAll (· == ·)
        TypeDesc.fingerprint TypeDesc.fingerprint ∧
      Represents (fun _ => True) Descriptor.forgetAll (· == ·)
        Descriptor.fingerprint Descriptor.fingerprint ∧
      Represents (fun _ => True) TypeSpec.forgetAll (· == ·)
        TypeSpec.fingerprint TypeSpec.fingerprint) ∧
    -- What is in storage, for what it stands for with nothing remembered.
    (∀ m : Memory,
      (LawfulKey (StoredMember.LivesIn m) StoredMember.beq StoredMember.fingerprint ∧
        Represents (StoredMember.LivesIn m) StoredMember.value
          StoredMember.beq StoredMember.fingerprint Member.fingerprint) ∧
      (LawfulKey (StoredDesc.LivesIn m) StoredDesc.beq StoredDesc.fingerprint ∧
        Represents (StoredDesc.LivesIn m) (fun d => d.value.forgetAll)
          StoredDesc.beq StoredDesc.fingerprint TypeDesc.fingerprint) ∧
      (LawfulKey (StoredDescriptor.LivesIn m) StoredDescriptor.beq StoredDescriptor.fingerprint ∧
        Represents (StoredDescriptor.LivesIn m) (fun t => t.value.forgetAll)
          StoredDescriptor.beq StoredDescriptor.fingerprint Descriptor.fingerprint) ∧
      (LawfulKey (StoredSpec.LivesIn m) StoredSpec.beq StoredSpec.fingerprint ∧
        Represents (StoredSpec.LivesIn m) (fun s => s.value.forgetAll)
          StoredSpec.beq StoredSpec.fingerprint TypeSpec.fingerprint)) ∧
    -- Arrays.
    (∀ (α : Type) (h : Heap α),
      (∀ (Valid : α → Prop) (eq : α → α → Bool) (fingerprint : α → List HashToken),
        LawfulKey Valid eq fingerprint →
          LawfulKey (SharedArray.Holds h Valid) (SharedArray.beqWith eq)
            (SharedArray.fingerprintWith fingerprint) ∧
          ∀ a b, SharedArray.Holds h Valid a → SharedArray.Holds h Valid b →
            (a.beqWith eq b = true ↔ a.size = b.size ∧
              ∀ i (hi : i < a.elements.length) (hi' : i < b.elements.length),
                eq a.elements[i] b.elements[i] = true)) ∧
      (∀ a : SharedArray α, a.LivesIn h → (a.isEmpty = true ↔ a.size = 0)) ∧
      ∀ xs, (h.create xs).1.elements = xs ∧ (h.create xs).1.LivesIn (h.create xs).2 ∧
        h.Grows (h.create xs).2) ∧
    -- Growth of storage.
    ∀ m m' : Memory, m.Grows m' →
      (∀ a : StoredMember, a.LivesIn m → a.LivesIn m') ∧
      (∀ d : StoredDesc, d.LivesIn m → d.LivesIn m') ∧
      (∀ t : StoredDescriptor, t.LivesIn m → t.LivesIn m') ∧
      ∀ s : StoredSpec, s.LivesIn m → s.LivesIn m' := by
  refine ⟨?values, ⟨fun d => ?read, ?forgotten⟩, fun m => ?storage, fun α h => ?arrays,
    fun m m' hgrows => ?growth⟩
  case values =>
    exact ⟨TypeRef.lawfulKey, Member.lawfulKey, TypeDesc.lawfulKey, Descriptor.lawfulKey,
      TypeSpec.lawfulKey⟩
  case read => exact ⟨d.forgetAll_rememberTypeName, d.forgetAll_rememberAssemblyName⟩
  case forgotten =>
    refine ⟨⟨fun d d' _ _ => ?_, fun d => ?_⟩, ⟨fun t u _ _ => ?_, fun t => ?_⟩,
      ⟨fun a b _ _ => ?_, fun s => ?_⟩⟩
    · exact (TypeDesc.beq_forgetAll d d').symm
    · exact d.fingerprint_forgetAll.symm
    · exact (Descriptor.beq_forgetAll t u).symm
    · exact t.fingerprint_forgetAll.symm
    · exact (TypeSpec.beq_forgetAll a b).symm
    · exact s.fingerprint_forgetAll.symm
  case storage =>
    refine ⟨⟨?_, StoredMember.represents m⟩, ⟨?_, StoredDesc.represents m⟩,
      ⟨?_, StoredDescriptor.represents m⟩, ⟨?_, StoredSpec.represents m⟩⟩
    · exact (StoredMember.represents m).lawfulKey Member.lawfulKey
    · exact (StoredDesc.represents m).lawfulKey TypeDesc.lawfulKey
    · exact (StoredDescriptor.represents m).lawfulKey Descriptor.lawfulKey
    · exact (StoredSpec.represents m).lawfulKey TypeSpec.lawfulKey
  case arrays =>
    refine ⟨fun Valid eq fingerprint hkey => ?_, fun a => SharedArray.isEmpty_iff, fun xs => ?_⟩
    · exact ⟨SharedArray.lawfulKey hkey h, fun a b => SharedArray.beqWith_iff hkey⟩
    · exact ⟨h.elements_create xs, SharedArray.livesIn_create h xs, h.grows_create xs⟩
  case growth =>
    exact ⟨fun a ha => ha.grow hgrows, fun d hd => hd.grow hgrows, fun t ht => ht.grow hgrows,
      fun s hs => hs.grow hgrows⟩

/-- A description with a base, a copy of it that shares the array of bases, and
one that was made anew from another base. Names have been read of the copy and
of the other base. -/
theorem equality_lawful_copies :
    let base : StoredDesc := { name := "Base" }
    let base' : StoredDesc := { base with remembered := ⟨some "Base", some "global::Base"⟩ }
    let made := Heap.blank.create [base]
    let made' := made.2.create [base']
    let m : Memory := { descs := made'.2 }
    let d : StoredDesc := { name := "Order", bases := made.1 }
    let copy : StoredDesc := { d with remembered := ⟨some "Order", none⟩ }
    let other : StoredDesc := { name := "Order", bases := made'.1 }
    d.LivesIn m ∧ copy.LivesIn m ∧ other.LivesIn m ∧ copy.beq d = true ∧ d.beq other = true ∧
      copy.beq other = true ∧ copy.fingerprint = other.fingerprint := by
  intro base base' made made' m d copy other
  have hbase : ∀ remembered, StoredDesc.LivesIn m { name := "Base", remembered } := by
    intro remembered
    constructor
    case attributes => trivial
    case members => trivial
    case ofMembers => exact fun a ha => absurd ha List.not_mem_nil
    case arrays => simp [StoredDesc.arrays]
    case inside => simp [StoredDesc.arrays]
  have hderived : ∀ (bases : SharedArray StoredDesc) remembered, bases.LivesIn m.descs →
      (∀ b ∈ bases.elements, b.LivesIn m) →
      StoredDesc.LivesIn m { name := "Order", bases, remembered } := by
    intro bases remembered hbases hinside
    constructor
    case attributes => trivial
    case members => trivial
    case ofMembers => exact fun a ha => absurd ha List.not_mem_nil
    case arrays => simp [StoredDesc.arrays, hbases]
    case inside => simpa [StoredDesc.arrays] using hinside
  have hmade : made.1.LivesIn m.descs :=
    (SharedArray.livesIn_create _ _).grow (made.2.grows_create [base'])
  have hmade' : made'.1.LivesIn m.descs := SharedArray.livesIn_create _ _
  have hone : ∀ b ∈ made.1.elements, b.LivesIn m := by
    rw [Heap.elements_create]
    exact List.forall_mem_singleton.mpr (hbase _)
  have hone' : ∀ b ∈ made'.1.elements, b.LivesIn m := by
    rw [Heap.elements_create]
    exact List.forall_mem_singleton.mpr (hbase _)
  have hd : d.LivesIn m := hderived _ _ hmade hone
  have hcopy : copy.LivesIn m := hderived _ _ hmade hone
  have hother : other.LivesIn m := hderived _ _ hmade' hone'
  obtain ⟨-, -, hstorage, -⟩ := equality_lawful
  obtain ⟨-, ⟨hkey, hrepresents⟩, -⟩ := hstorage m
  have hcopyd : copy.beq d = true := by
    rw [hrepresents.beq _ _ hcopy hd]
    exact BEq.rfl
  have hdother : d.beq other = true := by
    rw [hrepresents.beq _ _ hd hother]
    exact BEq.rfl
  have hcopyother : copy.beq other = true := hkey.trans _ _ _ hcopy hd hother hcopyd hdother
  exact ⟨hd, hcopy, hother, hcopyd, hdother, hcopyother,
    hkey.fingerprint _ _ hcopy hother hcopyother⟩

end SharpSource
