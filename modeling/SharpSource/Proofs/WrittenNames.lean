import Mathlib.Data.List.Induction
import SharpSource.Manifest.Parse
import SharpSource.Proofs.Outcome

/-!
# The names that entries give themselves

When a manifest has been read, its entries know their names and not where these
were written. The document knows: a name is the value under the key of an entry,
or the first item of an entry that is a list, and each value has its span. That
the two go together, entry by entry, is said here
(`Manifest.writtenNames?_of_ofText`).

A table is read entry by entry into a record, and each field sets its own part
of the record and leaves the rest alone. So a part has what is under the key of
its field, of several entries the last, or else what the blank record has
(`Schema.Gives.of_ofEntries`).
-/

namespace SharpSource

namespace Document

/-! ### Entries of a table -/

/-- What a table has under a key; of several entries the last counts. -/
def lastUnder? (key : String) (entries : List (Entry Value)) : Option (Located Value) :=
  (entries.reverse.find? (·.key.value == key)).map (·.item)

theorem lastUnder?_concat (key : String) (entries : List (Entry Value)) (e : Entry Value) :
    lastUnder? key (entries ++ [e]) =
      if e.key.value = key then some e.item else lastUnder? key entries := by
  rw [lastUnder?, List.reverse_append, List.reverse_singleton, List.singleton_append,
    List.find?_cons]
  by_cases h : e.key.value = key
  · simp [h]
  · have hkey : (e.key.value == key) = false := by simpa using h
    rw [hkey, if_neg h]
    rfl

theorem locate_eq_ok_iff {α : Type} {span : Span} {x : Except Fault α} {a : α} :
    locate span x = .ok a ↔ x = .ok a :=
  Outcome.mapError_eq_ok_iff

/-! ### Fields -/

variable {ρ α : Type} {get : ρ → α}

/-- **A field keeps a part** of the records that it is read into. -/
def Field.Keeps (f : Field ρ) (get : ρ → α) : Prop :=
  ∀ v r r', f.read v r = .ok r' → get r' = get r

theorem Field.of_read_ok_iff {β : Type} {name : String} {d : Decoder β} {set : β → ρ → ρ}
    {required listed : Bool} {v : Located Value} {r r' : ρ} :
    (Field.of name d set required listed).read v r = .ok r' ↔ ∃ b, d v = .ok b ∧ set b r = r' :=
  Outcome.map_eq_ok_iff

/-- What setting a field does not change, the field keeps. -/
theorem Field.keeps_of {β : Type} {name : String} {d : Decoder β} {set : β → ρ → ρ}
    {required listed : Bool} (h : ∀ b r, get (set b r) = get r) :
    (Field.of name d set required listed).Keeps get := by
  intro v r r' hread
  obtain ⟨b, -, rfl⟩ := Field.of_read_ok_iff.mp hread
  exact h b r

namespace Schema

/-- **A schema gives a part of its records** by what is read under a key: the
field of that name reads it, and the others keep it. -/
structure Gives (s : Schema ρ) (key : String) (d : Decoder α) (get : ρ → α) : Prop where
  reads : ∃ f, s.field? key = some f ∧ ∀ v r r', f.read v r = .ok r' → d v = .ok (get r')
  keeps : ∀ f ∈ s.fields, f.name ≠ key → f.Keeps get

variable {s : Schema ρ} {key : String} {d : Decoder α} {entries : List (Entry Value)} {r : ρ}

/-- **One entry** sets the part when it is under the key, and else keeps it. -/
theorem Gives.of_readEntry (h : s.Gives key d get) {e : Entry Value} {r₁ : ρ}
    (hread : s.readEntry r₁ e = .ok r) :
    (e.key.value = key → d e.item = .ok (get r)) ∧ (e.key.value ≠ key → get r = get r₁) := by
  rw [readEntry] at hread
  refine ⟨fun hkey => ?_, fun hkey => ?_⟩
  · obtain ⟨f, hfield, hreads⟩ := h.reads
    rw [hkey, hfield] at hread
    exact hreads _ _ _ (locate_eq_ok_iff.mp hread)
  · cases hfield : s.field? e.key.value with
    | some f =>
      rw [hfield] at hread
      have hname : f.name = e.key.value := by simpa using List.find?_some hfield
      exact h.keeps f (List.mem_of_find?_eq_some hfield) (hname ▸ hkey) _ _ _
        (locate_eq_ok_iff.mp hread)
    | none =>
      rw [hfield] at hread
      cases hothers : s.others with
      | some look =>
        rw [hothers] at hread
        obtain ⟨-, -, rfl⟩ := Outcome.map_eq_ok_iff.mp hread
        rfl
      | none =>
        rw [hothers] at hread
        cases hread

/-- **A table gives the part** by its last entry under the key, or leaves it as
it is. -/
theorem Gives.of_foldlM (h : s.Gives key d get)
    (hread : entries.foldlM s.readEntry s.blank = .ok r) :
    (∀ v, lastUnder? key entries = some v → d v = .ok (get r)) ∧
      (lastUnder? key entries = none → get r = get s.blank) := by
  induction entries using List.reverseRecOn generalizing r with
  | nil =>
    cases hread
    exact ⟨by simp [lastUnder?], fun _ => rfl⟩
  | append_singleton entries e ih =>
    rw [List.foldlM_append] at hread
    obtain ⟨r₁, hfirst, hlast⟩ := Outcome.bind_eq_ok_iff.mp hread
    rw [List.foldlM_cons] at hlast
    obtain ⟨r₂, hlast, ⟨⟩⟩ := Outcome.bind_eq_ok_iff.mp hlast
    obtain ⟨hset, hkept⟩ := h.of_readEntry hlast
    rw [lastUnder?_concat]
    by_cases hkey : e.key.value = key
    · rw [if_pos hkey]
      exact ⟨fun v hv => Option.some.inj hv ▸ hset hkey, fun hnone => nomatch hnone⟩
    · rw [if_neg hkey, hkept hkey]
      exact ih hfirst

theorem Gives.of_ofEntries (h : s.Gives key d get) (hread : s.ofEntries entries = .ok r) :
    (∀ v, lastUnder? key entries = some v → d v = .ok (get r)) ∧
      (lastUnder? key entries = none → get r = get s.blank) := by
  obtain ⟨r₁, hfold, hmissing⟩ := Outcome.bind_eq_ok_iff.mp hread
  cases hfield : s.missing? entries with
  | some f =>
    rw [hfield] at hmissing
    cases hmissing
  | none =>
    rw [hfield] at hmissing
    cases hmissing
    exact h.of_foldlM hfold

/-- Where a table is read, none of the fields that it must have is missing. -/
theorem lastUnder?_of_required (hread : s.ofEntries entries = .ok r) {f : Field ρ}
    (hf : f ∈ s.fields) (hrequired : f.required = true) :
    ∃ v, lastUnder? f.name entries = some v := by
  obtain ⟨r₁, -, hmissing⟩ := Outcome.bind_eq_ok_iff.mp hread
  cases hfield : s.missing? entries with
  | some f =>
    rw [hfield] at hmissing
    cases hmissing
  | none =>
    have hthere : entries.any (·.key.value == f.name) = true := by
      simpa [hrequired] using List.find?_eq_none.mp hfield f hf
    obtain ⟨e, he, hkey⟩ := List.any_eq_true.mp hthere
    have hfound : (entries.reverse.find? (·.key.value == f.name)).isSome :=
      List.find?_isSome.mpr ⟨e, List.mem_reverse.mpr he, hkey⟩
    obtain ⟨e', he'⟩ := Option.isSome_iff_exists.mp hfound
    exact ⟨e'.item, by rw [lastUnder?, he', Option.map_some]⟩

/-- Reading the items of a list keeps what all of the fields keep. -/
theorem ofItems_keeps {fs : List (Field ρ)} (h : ∀ f ∈ fs, f.Keeps get) {place : Nat}
    {items : List (Located Value)} {r₁ : ρ} (hread : s.ofItems place fs items r₁ = .ok r) :
    get r = get r₁ := by
  induction fs generalizing place items r₁ with
  | nil =>
    rw [ofItems] at hread
    split at hread
    · cases hread
    · cases hread
      rfl
  | cons f fs ih =>
    rw [List.forall_mem_cons] at h
    cases items with
    | nil =>
      rw [ofItems] at hread
      split at hread
      · cases hread
      · exact ih h.2 hread
    | cons v vs =>
      rw [ofItems] at hread
      obtain ⟨r₂, hfirst, hrest⟩ := Outcome.bind_eq_ok_iff.mp hread
      exact (ih h.2 hrest).trans (h.1 _ _ _ (locate_eq_ok_iff.mp hfirst))

end Schema

/-- A value that is a text, with its place. -/
def textOf? (v : Located Value) : Option (Located String) :=
  match v.value with
  | .text s => some ⟨v.span, s⟩
  | _ => none

theorem exists_textOf? {v : Located Value} {s : String} (h : readText v = .ok s) :
    ∃ t, textOf? v = some t ∧ t.value = s := by
  obtain ⟨span, value⟩ := v
  cases value with
  | text s' => exact ⟨⟨span, s'⟩, rfl, Except.ok.inj h⟩
  | _ => cases h

end Document

open Document

/-! ### Names of entries -/

/-- **The name that an entry gives itself**, where the document has it. -/
def TypeEntry.ownName? (v : Located Value) : Option (Located String) :=
  match v.value with
  | .table entries => (lastUnder? "name" entries).bind textOf?
  | .list (item :: _) => textOf? item
  | _ => none

/-- The entries of a document that are read as types. -/
def Manifest.typeItems (document : Value) : List (Located Value) :=
  match document with
  | .table entries =>
    match lastUnder? "types" entries with
    | some ⟨_, .list items⟩ => items
    | _ => []
  | _ => []

/-- **The names that the entries of a manifest give themselves**, in order. -/
def Manifest.writtenNames? (source : String) : Option (List (Located String)) := do
  let document ← Toml.read? source
  (typeItems document.value).mapM TypeEntry.ownName?

namespace TypeEntry

theorem schema_gives_name : schema.Gives "name" readText (·.name) where
  reads := ⟨_, rfl, fun v r r' hread => by
    obtain ⟨name, hname, rfl⟩ := Field.of_read_ok_iff.mp hread
    exact hname⟩
  keeps := by
    simp only [schema, List.forall_mem_cons]
    refine ⟨fun h => absurd rfl h, ?_⟩
    -- Each of the other fields sets a part of its own.
    repeat refine ⟨fun _ => Field.keeps_of fun _ _ => rfl, ?_⟩
    exact fun _ h => absurd h List.not_mem_nil

/-- **An entry is called what it calls itself.** -/
theorem exists_ownName? {v : Located Value} {e : TypeEntry} (h : schema.decode v = .ok e) :
    ∃ name, ownName? v = some name ∧ name.value = e.name := by
  obtain ⟨span, value⟩ := v
  have hread := locate_eq_ok_iff.mp h
  have hname : ∀ {entries}, schema.ofEntries entries = .ok e →
      ∃ v, lastUnder? "name" entries = some v ∧ readText v = .ok e.name := by
    intro entries hentries
    obtain ⟨v, hv⟩ := Schema.lastUnder?_of_required hentries (List.mem_cons_self ..) rfl
    exact ⟨v, hv, (schema_gives_name.of_ofEntries hentries).1 v hv⟩
  cases value with
  | table entries =>
    obtain ⟨v, hv, hread⟩ := hname hread
    obtain ⟨name, htext, hvalue⟩ := exists_textOf? hread
    exact ⟨name, by simp [ownName?, hv, htext], hvalue⟩
  | list items =>
    cases items with
    | nil => cases hread
    | cons item items =>
      obtain ⟨r, hfirst, hrest⟩ := Outcome.bind_eq_ok_iff.mp hread
      obtain ⟨s, hs, rfl⟩ := Field.of_read_ok_iff.mp (locate_eq_ok_iff.mp hfirst)
      have hothers : ∀ f ∈ schema.fields.tail, f.Keeps (·.name) := fun f hf =>
        schema_gives_name.keeps f (List.mem_of_mem_tail hf) fun hname => by
          have hmem : "name" ∈ schema.fields.tail.map (·.name) := hname ▸ List.mem_map_of_mem hf
          exact absurd hmem (by decide)
      have hsame : e.name = s := Schema.ofItems_keeps hothers hrest
      exact hsame ▸ exists_textOf? hs
  | moment m =>
    obtain ⟨v, hv, -⟩ := hname hread
    cases hv
  | _ => cases hread

end TypeEntry

namespace Manifest

theorem schema_gives_types :
    schema.Gives "types" (readList TypeEntry.schema.decode) (·.types) where
  reads := ⟨_, rfl, fun v r r' hread => by
    obtain ⟨types, htypes, rfl⟩ := Field.of_read_ok_iff.mp hread
    exact htypes⟩
  keeps := by
    simp only [schema, List.forall_mem_cons]
    exact ⟨fun _ => Field.keeps_of fun _ _ => rfl, fun _ => Field.keeps_of fun _ _ => rfl,
      fun h => absurd rfl h, fun _ h => absurd h List.not_mem_nil⟩

/-- The types of a manifest are read from the items of its document, one by
one. -/
theorem forall₂_typeItems {entries : List (Entry Value)} {m : Manifest}
    (h : schema.ofEntries entries = .ok m) :
    List.Forall₂ (fun v e => TypeEntry.schema.decode v = .ok e) (typeItems (.table entries))
      m.types := by
  obtain ⟨hgiven, hnone⟩ := schema_gives_types.of_ofEntries h
  rw [typeItems]
  cases hunder : lastUnder? "types" entries with
  | none =>
    rw [show m.types = [] from hnone hunder]
    exact .nil
  | some v =>
    have hread := hgiven v hunder
    obtain ⟨span, value⟩ := v
    cases value with
    | list items => exact Outcome.mapM_eq_ok_iff.mp hread
    | _ => cases hread

/-- **What a manifest calls its entries is what they call themselves.** -/
theorem writtenNames?_of_ofText {source : String} {m : Manifest} (h : ofText source = .ok m) :
    ∃ names, writtenNames? source = some names ∧
      names.map (·.value) = m.types.map (·.name) := by
  rw [ofText, readDocument] at h
  cases hdocument : Toml.read? source with
  | none =>
    rw [hdocument] at h
    cases h
  | some v =>
    rw [hdocument] at h
    have hdecode : schema.decode v = .ok m := Outcome.mapError_eq_ok_iff.mp h
    -- A document is a table.
    obtain ⟨entries, htable⟩ : ∃ entries, v.value = .table entries := by
      obtain ⟨p, -, hv⟩ := Option.bind_eq_some_iff.mp hdocument
      obtain rfl := Option.some.inj hv
      exact ⟨_, rfl⟩
    have hread := locate_eq_ok_iff.mp hdecode
    rw [htable] at hread
    have hitems := forall₂_typeItems hread
    rw [writtenNames?, hdocument]
    show ∃ names, (typeItems v.value).mapM TypeEntry.ownName? = some names ∧ _
    rw [htable]
    generalize typeItems (.table entries) = items at hitems
    generalize m.types = types at hitems
    induction hitems with
    | nil => exact ⟨[], rfl, rfl⟩
    | cons hfirst _ ih =>
      obtain ⟨names, hnames, hvalues⟩ := ih
      obtain ⟨name, hname, hvalue⟩ := TypeEntry.exists_ownName? hfirst
      refine ⟨name :: names, ?_, by rw [List.map_cons, List.map_cons, hvalue, hvalues]⟩
      rw [List.mapM_cons, hname, hnames]
      rfl

end Manifest

end SharpSource
