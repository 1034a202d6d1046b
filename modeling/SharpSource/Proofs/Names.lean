import Mathlib.Data.List.Nodup
import Mathlib.Data.List.TakeWhile
import SharpSource.Manifest.Resolution
import SharpSource.Proofs.WellFormed

/-!
# The names of a manifest

A manifest that has passed validation has names made of letters, numerals and
underscores, and no two of its entries have the same one (`Manifest.Named`).
Nothing else is needed to look types up without ambiguity. An entry is looked up
by its name or by its name with the namespace in front, and in either text the
part behind the last dot is the name (`TypeEntry.toList_name_of_answers`). So at
most one entry answers to a text, and it is found wherever it stands
(`Manifest.findType?_eq_some_iff`).

The same characters keep a name from being changed on its way into a file: there
is no blank that could be trimmed off, and no colon of an alias.
-/

namespace SharpSource

/-! ### Names that pass -/

open Identifier (isContinue)

/-- **An entry that is named**: its name goes on as a name does, and so does
its namespace between the dots. -/
structure TypeEntry.Named (e : TypeEntry) : Prop where
  name : ∀ c ∈ e.name.toList, isContinue c = true
  ns : ∀ ns, e.ns = some ns → ∀ c ∈ ns.toList, c = '.' ∨ isContinue c = true

/-- **A manifest whose names are in order**: all its entries are named, no two
of them the same. -/
structure Manifest.Named (m : Manifest) : Prop where
  entries : ∀ e ∈ m.types, e.Named
  nodup : (m.types.map (·.name)).Nodup

/-- **An entry that is in order is named.** -/
theorem TypeEntry.WellFormed.named {e : TypeEntry} (h : e.WellFormed) : e.Named where
  name := h.name.2.isContinue
  ns ns hns c hc := by
    rcases Text.mem_pieces_of_mem (p := (· == '.')) hc with hdot | ⟨w, hw, hc⟩
    · exact Or.inl (by simpa using hdot)
    · have hpart := h.ns ns hns _ (List.mem_map_of_mem hw)
      exact Or.inr (hpart.2.isContinue c (by simpa using hc))

/-- **A well-formed manifest** has its names in order. -/
theorem Manifest.WellFormed.named {m : Manifest} (h : m.WellFormed) : m.Named where
  entries e he := (h.entries e he).named
  nodup := h.names

/-- **A manifest that passes** has its names in order. -/
theorem Manifest.named_of_validate {m : Manifest} {source file : String}
    (h : m.validate source file = .ok ()) : m.Named :=
  (validate_ok_iff.mp h).1.named

/-! ### Looking names up -/

/-- **An entry answers to a text** that is its name, with or without
its namespace and the alias of the root in front. -/
def TypeEntry.Answers (e : TypeEntry) (text : String) : Prop :=
  e.name = unaliased text ∨ e.fullName = unaliased text

instance (e : TypeEntry) (text : String) : Decidable (e.Answers text) :=
  inferInstanceAs (Decidable (_ ∨ _))

namespace TypeRef

/-- What follows the last dot, where none follows any more. -/
theorem afterLastDot_append {cs ds : List Char} (h : '.' ∉ ds) :
    afterLastDot (cs ++ '.' :: ds) = ds := by
  have hall : ∀ c ∈ ds.reverse, (c != '.') = true := fun c hc => by
    rw [bne_iff_ne]
    rintro rfl
    exact h (List.mem_reverse.mp hc)
  rw [afterLastDot, List.reverse_append, List.reverse_cons, List.append_assoc,
    List.takeWhile_append_of_pos hall]
  simp

theorem afterLastDot_eq_self {ds : List Char} (h : '.' ∉ ds) : afterLastDot ds = ds := by
  have hall : ∀ c ∈ ds.reverse, (c != '.') = true := fun c hc => by
    rw [bne_iff_ne]
    rintro rfl
    exact h (List.mem_reverse.mp hc)
  rw [afterLastDot, List.takeWhile_eq_self_iff.mpr hall, List.reverse_reverse]

end TypeRef

namespace TypeEntry

variable {e : TypeEntry}

theorem Named.dot_not_mem (h : e.Named) : '.' ∉ e.name.toList := fun hdot => by
  have hcontinue := h.name _ hdot
  exact absurd hcontinue (by decide)

/-- **Whichever way an entry is looked up**, its name is what follows the last
dot. -/
theorem toList_name_of_answers (h : e.Named) {text : String} (hanswers : e.Answers text) :
    e.name.toList = TypeRef.afterLastDot (unaliased text).toList := by
  rcases hanswers with hname | hname
  · rw [← hname, TypeRef.afterLastDot_eq_self h.dot_not_mem]
  · rw [← hname, fullName]
    split
    · rw [String.toList_append, String.toList_append, List.append_assoc]
      exact (TypeRef.afterLastDot_append h.dot_not_mem).symm
    · rw [TypeRef.afterLastDot_eq_self h.dot_not_mem]

end TypeEntry

namespace Manifest

variable {m : Manifest}

theorem findType?_eq_find? (m : Manifest) (text : String) :
    m.findType? text = m.types.find? fun e => decide (e.Answers text) := by
  rw [findType?]
  congr 1
  funext e
  rw [Bool.eq_iff_iff, decide_eq_true_iff, Bool.or_eq_true, beq_iff_eq, beq_iff_eq,
    TypeEntry.Answers]

/-- **One entry at most answers to a text.** -/
theorem eq_of_answers (h : m.Named) {e e' : TypeEntry} {text : String} (he : e ∈ m.types)
    (he' : e' ∈ m.types) (hanswers : e.Answers text) (hanswers' : e'.Answers text) : e = e' := by
  refine List.inj_on_of_nodup_map h.nodup he he' (String.toList_inj.mp ?_)
  rw [TypeEntry.toList_name_of_answers (h.entries e he) hanswers,
    TypeEntry.toList_name_of_answers (h.entries e' he') hanswers']

/-- **The entry that is found** is the one that answers, wherever it stands. -/
theorem findType?_eq_some_iff (h : m.Named) {text : String} {e : TypeEntry} :
    m.findType? text = some e ↔ e ∈ m.types ∧ e.Answers text := by
  rw [findType?_eq_find?]
  constructor
  · intro hfind
    exact ⟨List.mem_of_find?_eq_some hfind, by simpa using List.find?_some hfind⟩
  · rintro ⟨he, hanswers⟩
    have hsome : (m.types.find? fun e => decide (e.Answers text)).isSome := by
      rw [List.find?_isSome]
      exact ⟨e, he, decide_eq_true hanswers⟩
    obtain ⟨e', hfind⟩ := Option.isSome_iff_exists.mp hsome
    have hanswers' : e'.Answers text := by simpa using List.find?_some hfind
    rw [hfind, eq_of_answers h (List.mem_of_find?_eq_some hfind) he hanswers' hanswers]

end Manifest

end SharpSource
