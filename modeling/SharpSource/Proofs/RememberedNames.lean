import Mathlib.Data.List.Induction
import SharpSource.Descriptor
import SharpSource.Proofs.Equality
import SharpSource.Proofs.EqualityLaws
import SharpSource.TypeDesc.InPlace

/-!
# Names that are remembered

The qualified names of a description are put together when they are first asked
for, and from then on they are read off its cell. A description that is renamed
or moved to another namespace would go on under its old name if it kept them;
and as one of the two is made from the other, both would have to be right. On
the other hand none of this may be seen from outside: whether a name has been
asked for is no part of the description.

The first is an invariant of cells, that what they remember is **up to date**
(`RememberedNames.UpToDate`). It is kept by each change, as the ones that keep
the names also keep what these are made of (`TypeDesc.Change.fullName_facts`),
and therefore by each call and each run (`DescPool.UpToDate.run`).

The second is about two pools. One in which everything is forgotten stands for
the same descriptions with everything forgotten in them
(`DescPool.values_forget`), and forgetting goes through all calls but reads,
which it undoes (`DescPool.forget_run`). So a run may as well do without its
reads, wherever they are in it: descriptions that are up to date and the same
with everything forgotten are **indistinct**
(`TypeDesc.indistinct_of_forgetAll`).

That cells are changed as descriptions are (`DescPool.values_run_change`) needs
that a description is built from older ones, which each call keeps as well.
-/

namespace SharpSource

open TypeDesc (Change Part QualifiedName)

/-! ### Up to date -/

/-- **What is remembered is up to date** with a full name when it is this name,
and the same from the root of all namespaces. -/
structure RememberedNames.UpToDate (r : RememberedNames) (fullName : String) : Prop where
  type : ∀ s ∈ r.typeName, s = fullName
  assembly : ∀ s ∈ r.assemblyName, s = globalAlias ++ fullName

theorem RememberedNames.upToDate_empty (fullName : String) : UpToDate {} fullName :=
  ⟨nofun, nofun⟩

namespace TypeDesc

variable {d : TypeDesc}

theorem typeName_of_upToDate (h : d.remembered.UpToDate d.fullName) : d.typeName = d.fullName := by
  rw [typeName]
  cases hname : d.remembered.typeName with
  | none => rfl
  | some s => exact h.type s hname

theorem assemblyName_of_upToDate (h : d.remembered.UpToDate d.fullName) :
    d.assemblyName = globalAlias ++ d.fullName := by
  rw [assemblyName, typeName_of_upToDate h]
  cases hname : d.remembered.assemblyName with
  | none => rfl
  | some s => exact h.assembly s hname

/-- **Reading keeps what is remembered up to date.** -/
theorem upToDate_remember (h : d.remembered.UpToDate d.fullName) (name : QualifiedName) :
    (d.remember name).remembered.UpToDate d.fullName := by
  have htype : d.rememberTypeName.remembered.UpToDate d.fullName :=
    ⟨fun s hs => (Option.some.inj hs).symm.trans (typeName_of_upToDate h), h.assembly⟩
  cases name with
  | type => exact htype
  | assembly =>
    rw [remember, rememberAssemblyName]
    split
    · exact h
    · refine ⟨htype.type, fun s hs => (Option.some.inj hs).symm.trans ?_⟩
      -- The assembly name is made from the type name that has just been remembered.
      exact assemblyName_of_upToDate (d := d.rememberTypeName) htype

/-- The types of a description in one of its lists. -/
def types (d : TypeDesc) : Part → List TypeDesc
  | .bases => d.bases
  | .interfaces => d.interfaces
  | .generics => d.generics
  | .containing => d.containing

/-- **A description is up to date** when what it remembers is, and when the
types that it is built from are up to date. -/
inductive UpToDate : TypeDesc → Prop
  | intro {d : TypeDesc} (here : d.remembered.UpToDate d.fullName)
      (types : ∀ p, ∀ x ∈ d.types p, UpToDate x) : UpToDate d

theorem UpToDate.here (h : d.UpToDate) : d.remembered.UpToDate d.fullName := by
  cases h with
  | intro here _ => exact here

theorem UpToDate.types (h : d.UpToDate) {p : Part} : ∀ x ∈ d.types p, x.UpToDate := by
  cases h with
  | intro _ types => exact types p

/-- **A change that keeps the names keeps what they are made of.** -/
theorem Change.fullName_facts {δ : Type} {c : Change δ} (h : c.renames = false) (f : TypeFacts) :
    (c.facts f).fullName = f.fullName := by
  cases c with
  | name s => cases h
  | ns s => cases h
  | flag mark on => cases mark <;> rfl
  | _ => rfl

end TypeDesc

namespace DescCell

variable {cell : DescCell}

theorem upToDate_change (h : cell.remembered.UpToDate cell.fullName) (c : Change Nat) :
    (cell.change c).remembered.UpToDate (cell.change c).fullName := by
  change (c.names cell.remembered).UpToDate (c.facts cell.toTypeFacts).fullName
  rw [Change.names]
  cases hrenames : c.renames with
  | true => exact RememberedNames.upToDate_empty _
  | false =>
    rw [Change.fullName_facts hrenames]
    exact h

theorem upToDate_remember (h : cell.remembered.UpToDate cell.fullName) (name : QualifiedName) :
    (cell.remember name).remembered.UpToDate (cell.remember name).fullName :=
  TypeDesc.upToDate_remember (d := cell.desc []) h name

theorem types_desc (cell : DescCell) (before : List TypeDesc) (p : Part) :
    (cell.desc before).types p = (cell.types p).filterMap (before[·]?) := by
  cases p <;> rfl

/-- What a cell stands for does not depend on descriptions that it is not built
from. -/
theorem desc_append {before : List TypeDesc} (h : ∀ p, ∀ n ∈ cell.types p, n < before.length)
    (more : List TypeDesc) : cell.desc (before ++ more) = cell.desc before := by
  have htypes : ∀ p, (cell.types p).filterMap ((before ++ more)[·]?) =
      (cell.types p).filterMap (before[·]?) := fun p =>
    List.filterMap_congr fun n hn => List.getElem?_append_left (h p n hn)
  simp only [desc, htypes]

/-- A change of a cell changes what it stands for. -/
theorem desc_change (cell : DescCell) (c : Change Nat) (before : List TypeDesc) :
    (cell.change c).desc before =
      (cell.desc before).change (c.mapTypes fun ns => ns.filterMap (before[·]?)) := by
  cases c with
  | part p types => cases p <;> rfl
  | flag mark on => cases mark <;> rfl
  | _ => rfl

end DescCell

namespace DescPool

/-- **A pool is up to date** when all its cells are. -/
def UpToDate (pool : DescPool) : Prop :=
  ∀ cell ∈ pool.cells, cell.remembered.UpToDate cell.fullName

variable {pool : DescPool}

theorem UpToDate.push (h : pool.UpToDate) {cell : DescCell}
    (hcell : cell.remembered.UpToDate cell.fullName) : (pool.push cell).UpToDate := by
  intro cell' hmem
  rcases List.mem_append.mp hmem with hmem | hmem
  · exact h cell' hmem
  · rw [List.mem_singleton.mp hmem]
    exact hcell

/-- **Each call keeps a pool up to date.** -/
theorem UpToDate.after (h : pool.UpToDate) (call : Call) : (pool.after call).UpToDate := by
  cases call with
  | make name => exact h.push (RememberedNames.upToDate_empty _)
  | clone k =>
    rw [DescPool.after]
    cases hcell : pool.cells[k]? with
    | none => exact h
    | some cell => exact h.push (h cell (List.mem_of_getElem? hcell))
  | change k c =>
    rw [DescPool.after]
    cases hcell : pool.cells[k]? with
    | none => exact h
    | some cell => exact h.push (DescCell.upToDate_change (h cell (List.mem_of_getElem? hcell)) _)
  | read k name =>
    intro cell hmem
    obtain ⟨i, hi, rfl⟩ := List.getElem_of_mem hmem
    simp only [DescPool.after, List.getElem_modify]
    have hi' : i < pool.cells.length := by simpa [DescPool.after] using hi
    have hcell := h _ (List.getElem_mem hi')
    split
    · exact DescCell.upToDate_remember hcell name
    · exact hcell

theorem UpToDate.run (h : pool.UpToDate) (calls : List Call) : (pool.run calls).UpToDate := by
  induction calls generalizing pool with
  | nil => exact h
  | cons call calls ih => exact ih (h.after call)

/-! ### What the cells stand for -/

@[simp] theorem values_push (pool : DescPool) (cell : DescCell) :
    (pool.push cell).values = pool.values ++ [cell.desc pool.values] := by
  rw [values, push, List.foldl_append]
  rfl

@[simp] theorem length_push (pool : DescPool) (cell : DescCell) :
    (pool.push cell).cells.length = pool.cells.length + 1 :=
  List.length_append

/-- Pools are built from the empty one by pushing cells. -/
theorem push_induction {P : DescPool → Prop} (empty : P {})
    (push : ∀ pool cell, P pool → P (pool.push cell)) (pool : DescPool) : P pool := by
  rcases pool with ⟨cells⟩
  induction cells using List.reverseRecOn with
  | nil => exact empty
  | append_singleton cells cell ih => exact push ⟨cells⟩ cell ih

@[simp] theorem length_values (pool : DescPool) : pool.values.length = pool.cells.length := by
  induction pool using push_induction with
  | empty => rfl
  | push pool cell ih =>
    rw [values_push, List.length_append, ih, length_push, List.length_singleton]

/-- All descriptions of a pool that is up to date are. -/
theorem UpToDate.values (h : pool.UpToDate) : ∀ d ∈ pool.values, d.UpToDate := by
  induction pool using push_induction with
  | empty => exact nofun
  | push pool cell ih =>
    have hpool := ih fun cell' hmem => h cell' (List.mem_append_left _ hmem)
    intro d hd
    rw [values_push, List.mem_append, List.mem_singleton] at hd
    rcases hd with hd | rfl
    · exact hpool d hd
    · refine .intro (h cell (List.mem_append_right _ (List.mem_singleton_self _))) fun p x hx => ?_
      rw [cell.types_desc, List.mem_filterMap] at hx
      obtain ⟨k, -, hk⟩ := hx
      exact hpool x (List.mem_of_getElem? hk)

/-! ### Changes in place -/

/-- **A pool is ordered** when each cell is built from cells before it only. -/
def Ordered (pool : DescPool) : Prop :=
  ∀ (k : Nat) (cell : DescCell), pool.cells[k]? = some cell → ∀ p, ∀ n ∈ cell.types p, n < k

theorem Ordered.push (h : pool.Ordered) {cell : DescCell}
    (hcell : ∀ p, ∀ n ∈ cell.types p, n < pool.cells.length) : (pool.push cell).Ordered := by
  intro k cell' hk
  rw [DescPool.push, List.getElem?_append] at hk
  split at hk
  · exact h k cell' hk
  · obtain ⟨hlt, rfl⟩ := List.getElem?_eq_some_iff.mp hk
    intro p n hn
    have := hcell p n (by simpa using hn)
    omega

/-- The types of a cell of an ordered pool are among the cells. -/
theorem Ordered.types_lt (h : pool.Ordered) {k : Nat} {cell : DescCell}
    (hcell : pool.cells[k]? = some cell) (p : Part) : ∀ n ∈ cell.types p, n < pool.cells.length :=
  fun n hn => Nat.lt_trans (h k cell hcell p n hn) (List.getElem?_eq_some_iff.mp hcell).1

/-- **Each call keeps a pool ordered.** -/
theorem Ordered.after (h : pool.Ordered) (call : Call) : (pool.after call).Ordered := by
  cases call with
  | make name => exact h.push nofun
  | clone k =>
    rw [DescPool.after]
    cases hcell : pool.cells[k]? with
    | none => exact h
    | some cell => exact h.push (h.types_lt hcell)
  | change k c =>
    rw [DescPool.after]
    cases hcell : pool.cells[k]? with
    | none => exact h
    | some cell =>
      refine h.push fun p => ?_
      cases c with
      | part q types =>
        intro n hn
        simp only [DescCell.change, Change.mapTypes, Change.types] at hn
        -- Types that come with the change are there; the others are those of the
        -- cell it starts from.
        split at hn
        · exact of_decide_eq_true (List.mem_filter.mp hn).2
        · exact h.types_lt hcell p n hn
      | _ => exact h.types_lt hcell p
  | read k name =>
    intro i cell hcell
    simp only [DescPool.after, List.getElem?_modify] at hcell
    obtain ⟨cell', hcell', rfl⟩ := Option.map_eq_some_iff.mp hcell
    -- A cell that remembers more is built from the same cells.
    split
    · exact h i cell' hcell'
    · exact h i cell' hcell'

theorem Ordered.run (h : pool.Ordered) (calls : List Call) : (pool.run calls).Ordered := by
  induction calls generalizing pool with
  | nil => exact h
  | cons call calls ih => exact ih (h.after call)

/-- What a cell of an ordered pool stands for, among all descriptions of the
pool. -/
theorem Ordered.values_getElem? (h : pool.Ordered) (k : Nat) :
    pool.values[k]? = (pool.cells[k]?).map (·.desc pool.values) := by
  induction pool using push_induction with
  | empty => rfl
  | push pool cell ih =>
    have hpool : pool.Ordered := by
      intro k' cell' hk'
      refine h k' cell' ?_
      rw [DescPool.push, List.getElem?_append_left (List.getElem?_eq_some_iff.mp hk').1, hk']
    -- Nothing that is already there sees the new description.
    have hdesc : ∀ cell' ∈ (pool.push cell).cells[k]?,
        cell'.desc (pool.push cell).values = cell'.desc pool.values := by
      intro cell' hcell'
      rw [values_push]
      refine DescCell.desc_append (fun p n hn => ?_) _
      have hlt : k < (pool.push cell).cells.length := (List.getElem?_eq_some_iff.mp hcell').1
      have := h k cell' hcell' p n hn
      rw [length_push] at hlt
      rw [length_values]
      omega
    rw [Option.map_congr hdesc, values_push, DescPool.push, List.getElem?_append,
      List.getElem?_append, length_values, apply_ite (Option.map _), ih hpool]
    split
    · rfl
    · rw [List.getElem?_singleton, List.getElem?_singleton, apply_ite (Option.map _)]
      rfl

theorem Ordered.values_after_clone (h : pool.Ordered) {k : Nat} {d : TypeDesc}
    (hd : pool.values[k]? = some d) : (pool.after (.clone k)).values = pool.values ++ [d] := by
  rw [h.values_getElem?, Option.map_eq_some_iff] at hd
  obtain ⟨cell, hcell, rfl⟩ := hd
  rw [DescPool.after, hcell, Option.elim_some, values_push]

/-- **A change in place** makes what the change makes of the description. -/
theorem Ordered.values_after_change (h : pool.Ordered) {k : Nat} {d : TypeDesc}
    (hd : pool.values[k]? = some d) (c : Change Nat) :
    (pool.after (.change k c)).values =
      pool.values ++ [d.change (c.mapTypes fun ks => ks.filterMap (pool.values[·]?))] := by
  rw [h.values_getElem?, Option.map_eq_some_iff] at hd
  obtain ⟨cell, hcell, rfl⟩ := hd
  have hfilter : ∀ ns : List Nat, (ns.filter (· < pool.cells.length)).filterMap (pool.values[·]?) =
      ns.filterMap (pool.values[·]?) := by
    intro ns
    rw [List.filterMap_filter]
    refine List.filterMap_congr fun n _ => ?_
    split
    · rfl
    · exact (List.getElem?_eq_none (by simp_all)).symm
  rw [DescPool.after, hcell, Option.elim_some, values_push, DescCell.desc_change]
  cases c with
  | part p types => simp only [Change.mapTypes, hfilter]
  | _ => rfl

theorem ordered_empty : Ordered {} := fun _ _ h => absurd h (by simp)

/-- After any run a change makes what it makes of a description. -/
theorem values_run_change (calls : List Call) {k : Nat} {d : TypeDesc}
    (hd : (run {} calls).values[k]? = some d) (c : Change Nat) :
    (run {} (calls ++ [.change k c])).values = (run {} calls).values ++
      [d.change (c.mapTypes fun ks => ks.filterMap ((run {} calls).values[·]?))] := by
  rw [run, List.foldl_append]
  exact (ordered_empty.run calls).values_after_change hd c

end DescPool

/-! ### Forgetting -/

/-- The cell with nothing remembered. -/
def DescCell.forget (cell : DescCell) : DescCell :=
  { cell with remembered := {} }

theorem DescCell.forget_change (cell : DescCell) (c : Change Nat) :
    (cell.change c).forget = cell.forget.change c := by
  have hnames : c.names {} = {} := by
    rw [Change.names]
    cases c.renames <;> rfl
  rw [forget, forget, change, change, hnames]

/-- What a cell stands for with everything forgotten. -/
theorem DescCell.desc_forget (cell : DescCell) (before : List TypeDesc) :
    cell.forget.desc (before.map TypeDesc.forgetAll) = (cell.desc before).forgetAll := by
  have htypes : ∀ ks : List Nat, ks.filterMap ((before.map TypeDesc.forgetAll)[·]?) =
      TypeDesc.rebuildAll id (ks.filterMap (before[·]?)) := by
    intro ks
    rw [TypeDesc.rebuildAll_eq_map, List.map_filterMap]
    simp only [List.getElem?_map]
    rfl
  simp only [desc, forget, htypes]
  rfl

namespace DescPool

variable {pool : DescPool}

/-- The pool with nothing remembered. -/
def forget (pool : DescPool) : DescPool :=
  ⟨pool.cells.map DescCell.forget⟩

theorem forget_push (pool : DescPool) (cell : DescCell) :
    (pool.push cell).forget = pool.forget.push cell.forget := by
  rw [forget, forget, push, push, List.map_append]
  rfl

@[simp] theorem length_forget (pool : DescPool) : pool.forget.cells.length = pool.cells.length :=
  List.length_map ..

/-- **A pool in which everything is forgotten** stands for the same with
everything forgotten. -/
theorem values_forget (pool : DescPool) :
    pool.forget.values = pool.values.map TypeDesc.forgetAll := by
  induction pool using push_induction with
  | empty => rfl
  | push pool cell ih =>
    rw [forget_push, values_push, values_push, ih, DescCell.desc_forget, List.map_append]
    rfl

namespace Call

/-- Whether a call only reads. -/
def isRead : Call → Bool
  | read _ _ => true
  | _ => false

end Call

/-- Reading changes nothing but what is remembered. -/
theorem forget_after_read (pool : DescPool) (k : Nat) (name : QualifiedName) :
    (pool.after (.read k name)).forget = pool.forget := by
  have hcells : (pool.cells.modify k (·.remember name)).map DescCell.forget =
      pool.cells.map DescCell.forget := by
    refine List.ext_getElem (by simp) fun i hi hi' => ?_
    rw [List.getElem_map, List.getElem_map, List.getElem_modify]
    split <;> rfl
  rw [after, forget, forget, hcells]

/-- **Forgetting goes through a call** that is no read. -/
theorem forget_after (pool : DescPool) {call : Call} (h : call.isRead = false) :
    (pool.after call).forget = pool.forget.after call := by
  have hcell : ∀ k, pool.forget.cells[k]? = (pool.cells[k]?).map DescCell.forget := fun k =>
    List.getElem?_map ..
  cases call with
  | make name => exact forget_push ..
  | clone k =>
    rw [after, after, hcell]
    cases pool.cells[k]? with
    | none => rfl
    | some cell => exact forget_push ..
  | change k c =>
    rw [after, after, hcell]
    cases pool.cells[k]? with
    | none => rfl
    | some cell =>
      rw [Option.elim_some, forget_push, cell.forget_change, Option.map_some, Option.elim_some,
        length_forget]
  | read k name => cases h

/-- **Forgetting undoes all reads of a run**, wherever they are in it. -/
theorem forget_run (pool : DescPool) (calls : List Call) :
    (pool.run calls).forget = pool.forget.run (calls.filter (!·.isRead)) := by
  induction calls generalizing pool with
  | nil => rfl
  | cons call calls ih =>
    refine (ih (pool.after call)).trans ?_
    -- A read is forgotten at once, and any other call is made in the pool with nothing remembered.
    cases hread : call.isRead with
    | true =>
      obtain ⟨k, name, rfl⟩ : ∃ k name, call = .read k name := by
        cases call with
        | read k name => exact ⟨k, name, rfl⟩
        | _ => cases hread
      rw [forget_after_read, List.filter_cons_of_neg (by simp [hread])]
    | false =>
      rw [pool.forget_after hread, List.filter_cons_of_pos (by simp [hread])]
      rfl

end DescPool

/-! ### What can be told apart -/

/-- Lists with the same images are related, element by element, when elements
with the same image are. -/
theorem forall₂_of_map_eq {α β : Type} {f : α → β} {R : α → α → Prop} {xs ys : List α}
    (h : xs.map f = ys.map f) (hR : ∀ x ∈ xs, ∀ y ∈ ys, f x = f y → R x y) :
    List.Forall₂ R xs ys := by
  rw [← List.forall₂_eq_eq_eq, List.forall₂_map_left_iff, List.forall₂_map_right_iff,
    List.forall₂_iff_zip] at h
  refine List.forall₂_iff_zip.mpr ⟨h.1, fun hab => ?_⟩
  exact hR _ (List.of_mem_zip hab).1 _ (List.of_mem_zip hab).2 (h.2 hab)

namespace TypeDesc

/-- **Descriptions are alike** when they answer the same whatever they are
asked, but for the types that they are built from: their facts, their names and
texts, the reference to them, the tokens of their hash, and whether they are
equal to some description. -/
structure Alike (d d' : TypeDesc) : Prop where
  facts : d.toTypeFacts = d'.toTypeFacts
  typeName : d.typeName = d'.typeName
  assemblyName : d.assemblyName = d'.assemblyName
  genericName : d.genericName = d'.genericName
  text : d.describe = d'.describe
  identity : d.identity = d'.identity
  reference : d.toRef = d'.toRef
  hash : d.fingerprint = d'.fingerprint
  beq_left : ∀ x : TypeDesc, (d == x) = (d' == x)
  beq_right : ∀ x : TypeDesc, (x == d) = (x == d')

/-- **Indistinct descriptions** are alike, and so are all types that they are
built from, one by one in order. -/
inductive Indistinct : TypeDesc → TypeDesc → Prop
  | intro {d d' : TypeDesc} (alike : d.Alike d')
      (types : ∀ p, List.Forall₂ Indistinct (d.types p) (d'.types p)) : Indistinct d d'

theorem facts_forgetAll (d : TypeDesc) : d.forgetAll.toTypeFacts = d.toTypeFacts := by
  rcases d with ⟨⟩
  rfl

theorem types_forgetAll (d : TypeDesc) (p : Part) :
    d.forgetAll.types p = (d.types p).map forgetAll := by
  rcases d with ⟨⟩
  cases p <;> exact rebuildAll_eq_map id _

mutual

theorem describe_forgetAll : ∀ d : TypeDesc, d.forgetAll.describe = d.describe
  | ⟨f, _, _, generics, _, _⟩ => by
    simp only [forgetAll, rebuild, describe, id_eq, describeList_rebuildAll_id generics]

theorem describeList_rebuildAll_id : ∀ ds : List TypeDesc,
    describeList (rebuildAll id ds) = describeList ds
  | [] => rfl
  | d :: ds => by
    have hd := describe_forgetAll d
    rw [forgetAll] at hd
    simp only [rebuildAll, describeList, hd, describeList_rebuildAll_id ds]

end

variable {d d' : TypeDesc}

theorem alike_of_forgetAll (h : d.forgetAll = d'.forgetAll) (hd : d.UpToDate) (hd' : d'.UpToDate) :
    d.Alike d' := by
  have hfacts : d.toTypeFacts = d'.toTypeFacts := by
    rw [← facts_forgetAll, h, facts_forgetAll]
  have htype : d.typeName = d'.typeName := by
    rw [typeName_of_upToDate hd.here, typeName_of_upToDate hd'.here, hfacts]
  have hassembly : d.assemblyName = d'.assemblyName := by
    rw [assemblyName_of_upToDate hd.here, assemblyName_of_upToDate hd'.here, hfacts]
  have hbeq : (d == d') = true := by
    rw [beq_iff_seen, ← seen_forgetAll, h, seen_forgetAll]
  exact
    { facts := hfacts
      typeName := htype
      assemblyName := hassembly
      genericName := genericName_eq_of_beq hbeq
      text := by rw [← describe_forgetAll, h, describe_forgetAll]
      identity := by simp only [identity, hfacts, hassembly]
      reference := by simp only [toRef, hfacts, hassembly]
      hash := by rw [← fingerprint_forgetAll, h, fingerprint_forgetAll]
      beq_left := fun x => by rw [← beq_forgetAll, h, beq_forgetAll]
      beq_right := fun x => by rw [← beq_forgetAll, h, beq_forgetAll] }

/-- **Descriptions that are up to date and the same with everything forgotten**
are indistinct. -/
theorem indistinct_of_forgetAll (h : d.forgetAll = d'.forgetAll) (hd : d.UpToDate)
    (hd' : d'.UpToDate) : d.Indistinct d' := by
  induction hd generalizing d' with
  | @intro d here types ih =>
    -- The types of the one with everything forgotten are those of the other, one by one.
    refine .intro (alike_of_forgetAll h ⟨here, types⟩ hd') fun p => ?_
    have hmap : (d.types p).map forgetAll = (d'.types p).map forgetAll := by
      rw [← types_forgetAll, h, types_forgetAll]
    exact forall₂_of_map_eq hmap fun x hx y hy hxy => ih p x hx hxy (hd'.types y hy)

end TypeDesc

namespace DescPool

theorem upToDate_empty : UpToDate {} := fun _ h => absurd h List.not_mem_nil

/-- **The names of a description never go stale**, and reading them changes
nothing that can be seen. After any calls, the qualified names of each
description are those of its present name and namespace. And runs that differ in
what is read, and when, make indistinct descriptions. -/
theorem names_never_stale (calls : List Call) :
    (∀ d ∈ (run {} calls).values,
      d.typeName = (match d.ns with
        | some ns => ns ++ "." ++ d.name
        | none => d.name) ∧
      d.assemblyName = "global::" ++ (match d.ns with
        | some ns => ns ++ "." ++ d.name
        | none => d.name)) ∧
    ∀ calls', calls'.filter (!·.isRead) = calls.filter (!·.isRead) →
      List.Forall₂ TypeDesc.Indistinct (run {} calls).values (run {} calls').values := by
  have huptodate : ∀ calls, ∀ d ∈ (run {} calls).values, d.UpToDate := fun calls =>
    (upToDate_empty.run calls).values
  constructor
  · intro d hd
    have hnames := (huptodate calls d hd).here
    exact ⟨TypeDesc.typeName_of_upToDate hnames, TypeDesc.assemblyName_of_upToDate hnames⟩
  · intro calls' hcalls
    have hforget : (run {} calls).values.map TypeDesc.forgetAll =
        (run {} calls').values.map TypeDesc.forgetAll := by
      rw [← values_forget, ← values_forget, forget_run, forget_run, hcalls]
    exact forall₂_of_map_eq hforget fun d hd d' hd' h =>
      TypeDesc.indistinct_of_forgetAll h (huptodate calls d hd) (huptodate calls' d' hd')

/-- An order whose names are read before it moves to a namespace. It is then the
base of a class that is cloned, and its new name is read where both see it. -/
theorem names_never_stale_moved :
    let written : List Call :=
      [.make "Order", .change 0 (.ns "Shop"), .make "Refund", .change 2 (.part .bases [1]),
        .clone 3]
    let read : List Call :=
      [.make "Order", .read 0 .assembly, .read 0 .type, .change 0 (.ns "Shop"), .make "Refund",
        .change 2 (.part .bases [1]), .read 3 .type, .clone 3, .read 1 .assembly]
    written.filter (!·.isRead) = read.filter (!·.isRead) ∧
      (run {} read).values.map (·.assemblyName) =
        ["global::Order", "global::Shop.Order", "global::Refund", "global::Refund",
          "global::Refund"] ∧
      List.Forall₂ TypeDesc.Indistinct (run {} read).values (run {} written).values := by
  intro written read
  have hwritten : written.filter (!·.isRead) = read.filter (!·.isRead) := rfl
  obtain ⟨hnames, hindistinct⟩ := names_never_stale read
  refine ⟨hwritten, ?_, hindistinct written hwritten⟩
  rw [List.map_congr_left fun d hd => (hnames d hd).2]
  decide

end DescPool

end SharpSource
