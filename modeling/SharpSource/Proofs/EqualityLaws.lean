import SharpSource.Proofs.Equality

/-!
# The laws of equality

References, members, descriptions, descriptors and specifications are keys of
caches. So their equality has to be an equivalence, and values that compare
equal have to feed the same tokens to a hash: that is `LawfulKey`.

All of it follows from one form of each value, which is the value without what
equality does not see (`TypeRef.seen`, `Member.seen`, and so on up to
`TypeSpec.seen`). Two values are equal exactly when what is seen of them is the
same (`TypeDesc.beq_iff_seen`), and the tokens are those of what is seen
(`TypeDesc.fingerprint_seen`). For a description both are inductions on it and
on the four lists of descriptions that it holds.

What a description remembers is not seen, wherever in it that stands. It makes
no difference which names have been read, of the description itself or of any
inside it (`TypeDesc.beq_forgetAll`).
-/

namespace SharpSource

/-! ### Lawful keys -/

/-- **A lawful key**, among values that are valid: its equality is an
equivalence, and equal values have one fingerprint. -/
structure LawfulKey {α : Type} (Valid : α → Prop) (eq : α → α → Bool)
    (fingerprint : α → List HashToken) : Prop where
  refl : ∀ a, Valid a → eq a a = true
  symm : ∀ a b, Valid a → Valid b → eq a b = true → eq b a = true
  trans : ∀ a b c, Valid a → Valid b → Valid c → eq a b = true → eq b c = true → eq a c = true
  fingerprint : ∀ a b, Valid a → Valid b → eq a b = true → fingerprint a = fingerprint b

/-- A key is lawful when its equality compares what is seen of the values, and
the tokens are made of that. -/
theorem LawfulKey.of_seen {α : Type} [BEq α] {seen : α → α} {fingerprint : α → List HashToken}
    (hbeq : ∀ a b : α, (a == b) = true ↔ seen a = seen b)
    (hfingerprint : ∀ a, fingerprint (seen a) = fingerprint a) :
    LawfulKey (fun _ => True) (· == ·) fingerprint where
  refl a _ := (hbeq a a).mpr rfl
  symm a b _ _ h := (hbeq b a).mpr ((hbeq a b).mp h).symm
  trans a b c _ _ _ hab hbc := (hbeq a c).mpr (((hbeq a b).mp hab).trans ((hbeq b c).mp hbc))
  fingerprint a b _ _ h := by rw [← hfingerprint a, (hbeq a b).mp h, hfingerprint]

/-! ### Lists -/

/-- Lists are compared by the forms of their elements where these are. -/
theorem list_beq_iff_map_eq {α β : Type} [BEq α] {form : α → β}
    (h : ∀ a b : α, (a == b) = true ↔ form a = form b) {xs ys : List α} :
    (xs == ys) = true ↔ xs.map form = ys.map form := by
  induction xs generalizing ys with
  | nil => cases ys <;> simp
  | cons x xs ih =>
    cases ys with
    | nil => simp
    | cons y ys => rw [List.cons_beq_cons, Bool.and_eq_true, h, ih, List.map_cons, List.map_cons,
        List.cons.injEq]

/-- The tokens of a list are those of the forms of its elements where these
are. -/
theorem fingerprintList_map {α β : Type} {item : α → List HashToken} {item' : β → List HashToken}
    {form : α → β} (h : ∀ a, item' (form a) = item a) (xs : List α) :
    fingerprintList item' (xs.map form) = fingerprintList item xs := by
  rw [fingerprintList, fingerprintList, List.length_map, List.flatMap_map]
  simp only [h]

/-! ### References and members -/

/-- What equality sees of a reference: its qualified name. -/
def TypeRef.seen (t : TypeRef) : TypeRef :=
  ⟨"", t.qualifiedName, false, .unknown, .ordinary, none⟩

theorem TypeRef.beq_iff_seen {a b : TypeRef} : (a == b) = true ↔ a.seen = b.seen := by
  rw [TypeRef.beq_iff, seen, seen, TypeRef.mk.injEq]
  simp

/-- **References** are lawful keys. -/
theorem TypeRef.lawfulKey : LawfulKey (fun _ => True) (· == ·) TypeRef.fingerprint :=
  .of_seen (fun _ _ => beq_iff_seen) fun _ => rfl

/-- What equality sees of a member: of its types nothing but their qualified
names. -/
def Member.seen (m : Member) : Member :=
  { m with type := m.type.seen, declaring := m.declaring.seen }

theorem Member.beq_iff_seen {a b : Member} : (a == b) = true ↔ a.seen = b.seen := by
  rw [Member.beq_iff]
  rcases a with ⟨⟩
  rcases b with ⟨⟩
  simp only [seen, TypeRef.seen, Member.mk.injEq, TypeRef.mk.injEq]
  tauto

instance : ReflBEq Member := ⟨Member.beq_iff_seen.mpr rfl⟩

theorem Member.fingerprint_seen (m : Member) : m.seen.fingerprint = m.fingerprint := rfl

/-- **Members** are lawful keys. -/
theorem Member.lawfulKey : LawfulKey (fun _ => True) (· == ·) Member.fingerprint :=
  .of_seen (fun _ _ => beq_iff_seen) fingerprint_seen

/-! ### Descriptions -/

/-- What equality sees of the facts about a type. -/
def TypeFacts.seen (f : TypeFacts) : TypeFacts :=
  { f with members := f.members.map Member.seen }

theorem TypeFacts.beq_iff_seen {a b : TypeFacts} : (a == b) = true ↔ a.seen = b.seen := by
  rw [TypeFacts.beq_iff, list_beq_iff_map_eq fun _ _ => Member.beq_iff_seen]
  rcases a with ⟨⟩
  rcases b with ⟨⟩
  simp only [seen, TypeFacts.mk.injEq]
  tauto

namespace TypeDesc

mutual

/-- The description with the facts changed, in itself and in every description
inside it, and nothing remembered anywhere. -/
def rebuild (change : TypeFacts → TypeFacts) : TypeDesc → TypeDesc
  | ⟨f, bases, interfaces, generics, containing, _⟩ =>
    ⟨change f, rebuildAll change bases, rebuildAll change interfaces, rebuildAll change generics,
      rebuildAll change containing, {}⟩

def rebuildAll (change : TypeFacts → TypeFacts) : List TypeDesc → List TypeDesc
  | [] => []
  | d :: ds => rebuild change d :: rebuildAll change ds

end

/-- What equality sees of a description. -/
def seen (d : TypeDesc) : TypeDesc :=
  d.rebuild TypeFacts.seen

/-- The description with nothing remembered, and nothing in any description
inside it. -/
def forgetAll (d : TypeDesc) : TypeDesc :=
  d.rebuild id

theorem rebuildAll_eq_map (change : TypeFacts → TypeFacts) (ds : List TypeDesc) :
    rebuildAll change ds = ds.map (rebuild change) := by
  induction ds with
  | nil => rfl
  | cons d ds ih => rw [rebuildAll, ih, List.map_cons]

mutual

theorem rebuild_rebuild (change change' : TypeFacts → TypeFacts) :
    ∀ d : TypeDesc, (d.rebuild change).rebuild change' = d.rebuild (change' ∘ change)
  | ⟨f, bases, interfaces, generics, containing, _⟩ => by
    simp only [rebuild, rebuildAll_rebuildAll change change' bases,
      rebuildAll_rebuildAll change change' interfaces,
      rebuildAll_rebuildAll change change' generics,
      rebuildAll_rebuildAll change change' containing, Function.comp_apply]

theorem rebuildAll_rebuildAll (change change' : TypeFacts → TypeFacts) :
    ∀ ds : List TypeDesc, rebuildAll change' (rebuildAll change ds) =
      rebuildAll (change' ∘ change) ds
  | [] => rfl
  | d :: ds => by
    simp only [rebuildAll, rebuild_rebuild change change' d,
      rebuildAll_rebuildAll change change' ds]

end

/-- What is remembered is not seen. -/
theorem seen_forgetAll (d : TypeDesc) : d.forgetAll.seen = d.seen := by
  rw [seen, forgetAll, rebuild_rebuild]
  rfl

mutual

theorem beq_eq_true_iff : ∀ d d' : TypeDesc,
    TypeDesc.beq d d' = true ↔ d.rebuild TypeFacts.seen = d'.rebuild TypeFacts.seen
  | ⟨f, bases, interfaces, generics, containing, _⟩,
    ⟨f', bases', interfaces', generics', containing', _⟩ => by
    simp only [TypeDesc.beq, Bool.and_eq_true, rebuild, TypeDesc.mk.injEq, TypeFacts.beq_iff_seen,
      beqList_eq_true_iff bases bases', beqList_eq_true_iff interfaces interfaces',
      beqList_eq_true_iff generics generics', beqList_eq_true_iff containing containing']
    tauto

theorem beqList_eq_true_iff : ∀ ds ds' : List TypeDesc,
    TypeDesc.beqList ds ds' = true ↔ rebuildAll TypeFacts.seen ds = rebuildAll TypeFacts.seen ds'
  | [], [] => by simp [TypeDesc.beqList]
  | [], d' :: ds' => by simp [TypeDesc.beqList, rebuildAll]
  | d :: ds, [] => by simp [TypeDesc.beqList, rebuildAll]
  | d :: ds, d' :: ds' => by
    simp only [TypeDesc.beqList, Bool.and_eq_true, rebuildAll, List.cons.injEq,
      beq_eq_true_iff d d', beqList_eq_true_iff ds ds']

end

/-- **Descriptions are equal** exactly when what is seen of them is the same. -/
theorem beq_iff_seen {d d' : TypeDesc} : (d == d') = true ↔ d.seen = d'.seen :=
  beq_eq_true_iff d d'

instance : ReflBEq TypeDesc := ⟨beq_iff_seen.mpr rfl⟩

theorem length_rebuildAll (change : TypeFacts → TypeFacts) (ds : List TypeDesc) :
    (rebuildAll change ds).length = ds.length := by
  rw [rebuildAll_eq_map, List.length_map]

mutual

theorem fingerprint_rebuild_seen : ∀ d : TypeDesc,
    (d.rebuild TypeFacts.seen).fingerprint = d.fingerprint
  | ⟨f, bases, interfaces, generics, containing, _⟩ => by
    have hmembers : fingerprintList Member.fingerprint (f.members.map Member.seen) =
        fingerprintList Member.fingerprint f.members :=
      fingerprintList_map Member.fingerprint_seen f.members
    simp only [rebuild, fingerprint, length_rebuildAll, fingerprintItems_rebuildAll_seen bases,
      fingerprintItems_rebuildAll_seen interfaces, fingerprintItems_rebuildAll_seen generics,
      fingerprintItems_rebuildAll_seen containing, TypeFacts.seen, hmembers]
    rfl

theorem fingerprintItems_rebuildAll_seen : ∀ ds : List TypeDesc,
    fingerprintItems (rebuildAll TypeFacts.seen ds) = fingerprintItems ds
  | [] => rfl
  | d :: ds => by
    simp only [rebuildAll, fingerprintItems, fingerprint_rebuild_seen d,
      fingerprintItems_rebuildAll_seen ds]

end

/-- **The tokens of a description** are those of what is seen of it. -/
theorem fingerprint_seen (d : TypeDesc) : d.seen.fingerprint = d.fingerprint :=
  fingerprint_rebuild_seen d

/-- **Descriptions** are lawful keys. -/
theorem lawfulKey : LawfulKey (fun _ => True) (· == ·) fingerprint :=
  .of_seen (fun _ _ => beq_iff_seen) fingerprint_seen

/-- Whatever names have been read, of a description or of any inside it,
equality does not tell. -/
theorem beq_forgetAll (d d' : TypeDesc) : (d.forgetAll == d'.forgetAll) = (d == d') := by
  rw [Bool.eq_iff_iff, beq_iff_seen, beq_iff_seen, seen_forgetAll, seen_forgetAll]

theorem fingerprint_forgetAll (d : TypeDesc) : d.forgetAll.fingerprint = d.fingerprint := by
  rw [← fingerprint_seen, seen_forgetAll, fingerprint_seen]

/-- Reading a name changes nothing but what is remembered. -/
theorem forgetAll_rememberTypeName (d : TypeDesc) : d.rememberTypeName.forgetAll = d.forgetAll := by
  rcases d with ⟨⟩
  rfl

theorem forgetAll_rememberAssemblyName (d : TypeDesc) :
    d.rememberAssemblyName.forgetAll = d.forgetAll := by
  rw [rememberAssemblyName]
  split
  · rfl
  · rw [← forgetAll_rememberTypeName d]
    rcases d with ⟨⟩
    rfl

end TypeDesc

/-! ### Descriptors and specifications -/

namespace Descriptor

/-- What equality sees of a descriptor. -/
def seen : Descriptor → Descriptor
  | desc d => desc d.seen
  | ref t => ref t.seen

theorem beq_iff_seen {t u : Descriptor} : (t == u) = true ↔ t.seen = u.seen := by
  cases t with
  | desc d =>
    cases u with
    | desc d' =>
      rw [seen, seen, desc.injEq, ← TypeDesc.beq_iff_seen]
      rfl
    | ref t' => exact ⟨fun h => (nomatch h), fun h => (nomatch h)⟩
  | ref t =>
    cases u with
    | desc d' => exact ⟨fun h => (nomatch h), fun h => (nomatch h)⟩
    | ref t' =>
      rw [seen, seen, ref.injEq, ← TypeRef.beq_iff_seen]
      rfl

instance : ReflBEq Descriptor := ⟨beq_iff_seen.mpr rfl⟩

theorem fingerprint_seen (t : Descriptor) : t.seen.fingerprint = t.fingerprint := by
  cases t with
  | desc d => rw [seen, fingerprint, fingerprint, d.fingerprint_seen]
  | ref t => rfl

/-- **Descriptors** are lawful keys. -/
theorem lawfulKey : LawfulKey (fun _ => True) (· == ·) fingerprint :=
  .of_seen (fun _ _ => beq_iff_seen) fingerprint_seen

/-- The descriptor with nothing remembered anywhere. -/
def forgetAll : Descriptor → Descriptor
  | desc d => desc d.forgetAll
  | ref t => ref t

theorem seen_forgetAll (t : Descriptor) : t.forgetAll.seen = t.seen := by
  cases t with
  | desc d => rw [forgetAll, seen, seen, d.seen_forgetAll]
  | ref t => rfl

theorem beq_forgetAll (t u : Descriptor) : (t.forgetAll == u.forgetAll) = (t == u) := by
  rw [Bool.eq_iff_iff, beq_iff_seen, beq_iff_seen, seen_forgetAll, seen_forgetAll]

theorem fingerprint_forgetAll (t : Descriptor) : t.forgetAll.fingerprint = t.fingerprint := by
  rw [← fingerprint_seen, seen_forgetAll, fingerprint_seen]

end Descriptor

namespace TypeSpec

/-- What equality sees of a specification. -/
def seen (s : TypeSpec) : TypeSpec :=
  { s with
    target := s.target.seen
    members := s.members.map Member.seen
    others := s.others.map Descriptor.seen }

theorem beq_iff_seen {a b : TypeSpec} : (a == b) = true ↔ a.seen = b.seen := by
  rw [TypeSpec.beq_iff, Descriptor.beq_iff_seen, list_beq_iff_map_eq fun _ _ => Member.beq_iff_seen,
    list_beq_iff_map_eq fun _ _ => Descriptor.beq_iff_seen, seen, seen, TypeSpec.mk.injEq]

theorem fingerprint_seen (s : TypeSpec) : s.seen.fingerprint = s.fingerprint := by
  simp only [seen, fingerprint, s.target.fingerprint_seen,
    fingerprintList_map Member.fingerprint_seen, fingerprintList_map Descriptor.fingerprint_seen]

/-- **Specifications** are lawful keys. -/
theorem lawfulKey : LawfulKey (fun _ => True) (· == ·) fingerprint :=
  .of_seen (fun _ _ => beq_iff_seen) fingerprint_seen

/-- The specification with nothing remembered anywhere. -/
def forgetAll (s : TypeSpec) : TypeSpec :=
  { s with target := s.target.forgetAll, others := s.others.map Descriptor.forgetAll }

theorem seen_forgetAll (s : TypeSpec) : s.forgetAll.seen = s.seen := by
  simp only [forgetAll, seen, s.target.seen_forgetAll, List.map_map, Function.comp_def,
    Descriptor.seen_forgetAll]

theorem beq_forgetAll (a b : TypeSpec) : (a.forgetAll == b.forgetAll) = (a == b) := by
  rw [Bool.eq_iff_iff, beq_iff_seen, beq_iff_seen, seen_forgetAll, seen_forgetAll]

theorem fingerprint_forgetAll (s : TypeSpec) : s.forgetAll.fingerprint = s.fingerprint := by
  rw [← fingerprint_seen, seen_forgetAll, fingerprint_seen]

end TypeSpec

end SharpSource
