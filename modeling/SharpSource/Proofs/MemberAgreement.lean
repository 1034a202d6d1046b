import SharpSource.Proofs.Identities
import SharpSource.Proofs.Independence
import SharpSource.Proofs.Nesting
import SharpSource.Proofs.Separation

/-!
# What two emitters make of a member

A member is declared by one emitter, and compared and hashed by another. Each of
the two goes through the members in a loop of its own, and none asks the other
how the type of a member is written or whether its name has to be escaped. In
the file they have to agree all the same: what is compared must be what is
declared, under the same name, by a comparer for the same type, and nothing may
be left out.

Between them stands the **signature** of a member, its type and its name as
source writes them (`Manifest.signature`). It is read off the entry before there
is any emitter. A declaration is a line with this signature in it, between
modifiers and accessors (`Signature.Declares`, `Member.declares_declaration`);
the texts of equality are functions of the signatures and of nothing else about
the members (`equalityText`, `Emitter.equatablePiece_eq`). The rest is to follow
both texts to their places: what an emitter puts is its piece, and the bodies of
a file are the pieces of all its emitters
(`TypeEntry.exists_pieces_of_generate`).
-/

namespace SharpSource

open Layout
open Writer (lineText)

/-! ### Tokens -/

namespace Identifier

/-- **No token is a reserved keyword**: with a mark in front a keyword is none
any more. -/
theorem isKeyword_escape (name : String) : isKeyword (escape name) = false := by
  have hmarked : ∀ keyword ∈ keywords, isKeyword ("@" ++ keyword) = false := by decide +kernel
  rw [escape]
  cases h : isKeyword name with
  | true => exact hmarked name (List.contains_iff_mem.mp h)
  | false => exact h

theorem marked_ne {name other : String} (h : IsIdentifier other) : "@" ++ name ≠ other := by
  obtain ⟨c, cs, hcs, hstart, -⟩ := h
  rintro rfl
  obtain rfl : '@' = c := by
    rw [String.toList_append] at hcs
    exact (List.cons.inj hcs).1
  exact absurd hstart (by decide)

/-- **Identifiers with one token are the same**: the mark is no part of an
identifier. -/
theorem escape_inj {name other : String} (h : IsIdentifier name) (h' : IsIdentifier other) :
    escape name = escape other ↔ name = other := by
  refine ⟨fun hsame => ?_, congrArg escape⟩
  rw [escape, escape] at hsame
  split at hsame
  · split at hsame
    · exact (String.append_right_inj _).mp hsame
    · exact absurd hsame (marked_ne h')
  · split at hsame
    · exact absurd hsame.symm (marked_ne h)
    · exact hsame

end Identifier

/-! ### Signatures -/

/-- **The signature of a member**: its type and its name, as source writes
them. -/
structure Signature where
  type : String
  token : String
  deriving DecidableEq, Repr

namespace Signature

/-- The words for an accessibility. -/
def accessWords : List String :=
  ["public", "internal", "protected", "private", "private protected"]

/-- The words that may stand in front of a declaration. -/
def modifiers : List String :=
  accessWords ++ ["required", "abstract", "virtual", "readonly"]

/-- What may stand between the braces of a property. -/
def accessors : List String :=
  ["get;", "set;", "init;"].flatMap fun word => word :: accessWords.map (· ++ " " ++ word)

/-- A line **declares** a signature when it has it behind modifiers, and behind
it a semicolon or accessors in braces. -/
def Declares (s : Signature) (line : String) : Prop :=
  ∃ (front : List String) (ending : String),
    line = String.join (front.map (· ++ " ")) ++ s.type ++ " " ++ s.token ++ ending ∧
    (∀ word ∈ front, word ∈ modifiers) ∧
    (ending = ";" ∨ ∃ inside : List String, ending = " \x7b " ++ " ".intercalate inside ++ " \x7d" ∧
      ∀ word ∈ inside, word ∈ accessors)

/-- The comparison of a member with that of another instance. -/
def comparison (s : Signature) : String :=
  "global::System.Collections.Generic.EqualityComparer<" ++ s.type ++ ">.Default.Equals(" ++
    s.token ++ ", other." ++ s.token ++ ")"

/-- The line that hashes a member. -/
def hashing (s : Signature) : String :=
  "hash.Add(" ++ s.token ++ ");"

end Signature

/-- The statement that compares members: all comparisons in a row, each but the
first on a line of its own. -/
def comparisons (i : Indent) (signatures : List Signature) : String :=
  if signatures = [] then "return true;"
  else "return " ++
    ("\n" ++ i.unit ++ "&& ").intercalate (signatures.map Signature.comparison) ++ ";"

/-- **The text of equality**: a block that compares, the comparison of objects,
and a block that hashes, with nothing in them about members but the
signatures. -/
def equalityText (c : Context) (d : TypeDesc) (signatures : List Signature) (level : Nat)
    (i : Indent) : String :=
  block i level (lineText i level (Emitter.equalsLine c d)) (linesText i (level + 1)
      ((if d.isValue then [] else Emitter.referenceChecks) ++ [comparisons i signatures])) ++
    "\n" ++ lineText i level (Emitter.objectEqualsLine c d) ++ "\n" ++
    block i level (lineText i level "public override int GetHashCode()") (linesText i (level + 1)
      (["var hash = new global::System.HashCode();"] ++ signatures.map Signature.hashing ++
        ["return hash.ToHashCode();"]))

namespace Member

/-- The signature of a member. -/
def signature (m : Member) : Signature :=
  ⟨m.type.sourceName, m.token⟩

/-- A declared accessibility has one of the words. -/
theorem mem_accessWords {a : Accessibility} {word : String}
    (h : Declaration.accessibility a = .ok word) : word ∈ Signature.accessWords := by
  have hwords : ∀ word ∈ a.keyword?, word ∈ Signature.accessWords := by
    cases a <;> decide
  rw [Declaration.accessibility] at h
  split at h
  · rename_i keyword hkeyword
    cases h
    exact hwords _ hkeyword
  · cases h

theorem mem_accessors {own : Accessibility} {m : Member} {word s : String}
    (hword : word ∈ ["get", "set", "init"]) (h : m.accessor own word = .ok s) :
    s ∈ Signature.accessors := by
  have hends : word ++ ";" ∈ ["get;", "set;", "init;"] := by
    simp only [List.mem_cons, List.not_mem_nil, or_false] at hword
    rcases hword with rfl | rfl | rfl <;> decide
  rw [Signature.accessors, List.mem_flatMap]
  refine ⟨word ++ ";", hends, ?_⟩
  rw [accessor] at h
  split at h
  · cases h
    exact List.mem_cons_self ..
  · obtain ⟨access, haccess, ⟨⟩⟩ := Outcome.bind_eq_ok_iff.mp h
    refine List.mem_cons_of_mem _ (List.mem_map.mpr ⟨access, mem_accessWords haccess, ?_⟩)
    exact String.append_assoc.symm

/-- The words in front of a member: its accessibility, and the marks that it
has. -/
def front (access : String) (marks : List (String × Bool)) : List String :=
  access :: (marks.filter (·.2)).map (·.1)

theorem mem_modifiers_of_mem_front {access : String} {marks : List (String × Bool)}
    (haccess : access ∈ Signature.accessWords) (h : ∀ mark ∈ marks, mark.1 ∈ Signature.modifiers) :
    ∀ word ∈ front access marks, word ∈ Signature.modifiers := by
  rw [front, List.forall_mem_cons]
  refine ⟨List.mem_append_left _ haccess, fun word hword => ?_⟩
  obtain ⟨mark, hmark, rfl⟩ := List.mem_map.mp hword
  exact h mark (List.mem_of_mem_filter hmark)

theorem declares_propertyLine {m : Member} {line : String} (h : m.propertyLine = .ok line) :
    m.signature.Declares line := by
  obtain ⟨access, haccess, h⟩ := Outcome.bind_eq_ok_iff.mp h
  obtain ⟨getter, hgetter, h⟩ := Outcome.bind_eq_ok_iff.mp h
  obtain ⟨inside, hinside, hline⟩ : ∃ inside : List String,
      (∀ word ∈ inside, word ∈ Signature.accessors) ∧
      line = access ++ " " ++ (if m.isRequired then "required " else "") ++
        (if m.isAbstract then "abstract " else if m.isVirtual then "virtual " else "") ++
        m.type.sourceName ++ " " ++ m.token ++ " \x7b " ++ " ".intercalate inside ++ " \x7d" := by
    have hget : getter ∈ Signature.accessors := mem_accessors (by decide) hgetter
    by_cases hreadOnly : m.isReadOnly
    · rw [if_pos hreadOnly] at h
      cases h
      exact ⟨[getter], List.forall_mem_singleton.mpr hget, by simp⟩
    · rw [if_neg hreadOnly] at h
      obtain ⟨setter, hsetter, ⟨⟩⟩ := Outcome.bind_eq_ok_iff.mp h
      obtain ⟨written, hwritten, rfl⟩ := Outcome.map_eq_ok_iff.mp hsetter
      have hset : written ∈ Signature.accessors :=
        mem_accessors (by cases m.isInitOnly <;> decide) hwritten
      refine ⟨[getter, written], ?_, by simp [String.append_assoc]⟩
      exact List.forall_mem_cons.mpr ⟨hget, List.forall_mem_singleton.mpr hset⟩
  refine ⟨front access [("required", m.isRequired), ("abstract", m.isAbstract),
      ("virtual", !m.isAbstract && m.isVirtual)], _, ?_,
    mem_modifiers_of_mem_front (mem_accessWords haccess) ?_, Or.inr ⟨inside, rfl, hinside⟩⟩
  · rw [hline]
    cases m.isRequired <;> cases m.isAbstract <;> cases m.isVirtual <;>
      simp [signature, front, String.append_assoc]
  · simp [Signature.modifiers]

theorem declares_fieldLine {m : Member} {line : String} (h : m.fieldLine = .ok line) :
    m.signature.Declares line := by
  obtain ⟨access, haccess, ⟨⟩⟩ := Outcome.bind_eq_ok_iff.mp h
  refine ⟨front access [("required", m.isRequired), ("readonly", m.isReadOnly)], ";", ?_,
    mem_modifiers_of_mem_front (mem_accessWords haccess) ?_, Or.inl rfl⟩
  · cases m.isRequired <;> cases m.isReadOnly <;> simp [signature, front, String.append_assoc]
  · simp [Signature.modifiers]

/-- **What declares a member declares its signature.** -/
theorem declares_declaration {m : Member} {line : String} (h : m.declaration = .ok line) :
    m.signature.Declares line := by
  rw [declaration] at h
  split at h
  · exact declares_propertyLine h
  · exact declares_fieldLine h

/-- **Members that can be declared** have their lines, which a text at any level
is made of. -/
theorem exists_lines {ms : List Member} (h : ∀ m ∈ ms, ∃ s, m.declaration = .ok s) :
    ∃ lines : List (List String),
      List.Forall₂ (fun m ls => ∃ line, m.signature.Declares line ∧ ls = m.attributeLines ++ [line])
        ms lines ∧
      ∀ level i, ms.mapM (text i level) = .ok (lines.map (linesText i level)) := by
  obtain ⟨declared, hdeclared⟩ := Outcome.mapM_ok_of_forall h
  rw [Outcome.mapM_eq_ok_iff] at hdeclared
  induction hdeclared with
  | nil => exact ⟨[], .nil, fun _ _ => rfl⟩
  | @cons m line ms _ hline _ ih =>
    obtain ⟨lines, hlines, htext⟩ := ih fun m hm => h m (List.mem_cons_of_mem _ hm)
    refine ⟨(m.attributeLines ++ [line]) :: lines,
      .cons ⟨line, declares_declaration hline, rfl⟩ hlines, fun level i => ?_⟩
    have hfirst : m.text i level = .ok (linesText i level (m.attributeLines ++ [line])) := by
      rw [text, hline]
      rfl
    rw [List.mapM_cons, hfirst, htext level i]
    rfl

end Member

/-! ### The pieces of the two emitters -/

theorem join_linesText (i : Indent) (level : Nat) (lines : List (List String)) :
    String.join (lines.map (linesText i level)) = linesText i level lines.flatten := by
  induction lines with
  | nil => rfl
  | cons ls lines ih =>
    rw [List.map_cons, String.join_cons, ih, List.flatten_cons]
    simp [linesText]

namespace Emitter

theorem comparisonStatement_eq (i : Indent) (ms : List Member) :
    comparisonStatement i ms = comparisons i (ms.map Member.signature) := by
  have hcomparison : ms.map comparison = (ms.map Member.signature).map Signature.comparison := by
    rw [List.map_map]
    rfl
  rw [comparisonStatement, comparisons, hcomparison]
  cases ms <;> rfl

/-- **What makes a type equatable** sees nothing of its members but their
signatures. -/
theorem equatablePiece_eq (c : Context) (d : TypeDesc) (level : Nat) (i : Indent) :
    equatablePiece c d level i =
      equalityText c d (c.spec.members.map Member.signature) level i := by
  have hhash : hashBody c = ["var hash = new global::System.HashCode();"] ++
      (c.spec.members.map Member.signature).map Signature.hashing ++
        ["return hash.ToHashCode();"] := by
    rw [List.map_map]
    rfl
  rw [equatablePiece, equalityText, equalsBody, comparisonStatement_eq, hhash]

/-- A type that is made equatable is the target itself. -/
theorem equatableTarget?_eq {spec : TypeSpec} {d : TypeDesc} (htarget : spec.target = .desc d)
    (h : (equatableTarget? spec).isSome = true) : equatableTarget? spec = some d := by
  obtain ⟨d', hd'⟩ := Option.isSome_iff_exists.mp h
  have hdesc : spec.target.desc? = some d' := by
    rw [equatableTarget?, Option.filter_eq_some_iff] at hd'
    exact hd'.1
  rw [htarget] at hdesc
  rw [hd', ← hdesc]
  rfl

end Emitter

namespace Builtin

/-- An emitter that declines has an empty piece. -/
theorem piece_of_declined {b : Builtin} {c : Context} (h : b.emitter.accepts c = false)
    (level : Nat) (i : Indent) : b.piece c level i = .ok "" := by
  cases b with
  | properties =>
    have hmembers : c.spec.members = [] := by
      simpa [emitter, Emitter.properties] using h
    rw [piece, hmembers]
    rfl
  | equatable =>
    have htarget : Emitter.equatableTarget? c.spec = none := by
      simpa [emitter, Emitter.equatable] using h
    rw [piece, htarget]
  | snippet s => cases h

/-- The piece with the members, when their texts are made of lines. -/
theorem properties_piece {c : Context} {lines : List (List String)} {level : Nat} {i : Indent}
    (h : c.spec.members.mapM (Member.text i level) = .ok (lines.map (linesText i level))) :
    properties.piece c level i = .ok (linesText i level lines.flatten) := by
  rw [piece, h, ← join_linesText]
  rfl

/-- The piece that makes the target equatable. -/
theorem equatable_piece (c : Context) {d : TypeDesc} (htarget : c.spec.target = .desc d)
    (h : (Emitter.equatableTarget? c.spec).isSome = true) (level : Nat) (i : Indent) :
    equatable.piece c level i =
      .ok (equalityText c d (c.spec.members.map Member.signature) level i) := by
  rw [piece, Emitter.equatableTarget?_eq htarget h, ← Emitter.equatablePiece_eq]

end Builtin

/-! ### The bodies of a file -/

/-- Among the pieces that are not empty those of a part of the emitters are all,
when the others have empty ones. -/
theorem exists_pieces_of_filter {α : Type} {R : α → String → Prop} {p : α → Bool} {xs : List α}
    {pieces : List String} (hempty : ∀ x, p x = false → R x "")
    (h : List.Forall₂ R (xs.filter p) pieces) :
    ∃ all, List.Forall₂ R xs all ∧ all.filter (· != "") = pieces.filter (· != "") := by
  induction xs generalizing pieces with
  | nil => exact ⟨pieces, h, rfl⟩
  | cons x xs ih =>
    cases hx : p x with
    | true =>
      rw [List.filter_cons_of_pos hx] at h
      obtain ⟨s, rest, hs, hrest, rfl⟩ := List.forall₂_cons_left_iff.mp h
      obtain ⟨all, hall, hfilter⟩ := ih hrest
      refine ⟨s :: all, .cons hs hall, ?_⟩
      rw [List.filter_cons, List.filter_cons, hfilter]
    | false =>
      rw [List.filter_cons_of_neg (by simp [hx])] at h
      obtain ⟨all, hall, hfilter⟩ := ih h
      exact ⟨"" :: all, .cons (hempty x hx) hall, hfilter⟩

namespace TypeEntry

variable {e : TypeEntry} {settings : Settings} {spec : TypeSpec} {siblings : Siblings}

/-- **The participants of an entry** are those of its emitters that accept, all
with the options of the file. -/
theorem participants_eq_filter {ps : List Participant}
    (h : (e.fileEmitter settings).participants spec siblings = .ok ps) :
    ps = (e.builtins.filter fun b => b.emitter.accepts ⟨spec, settings.file, siblings⟩).map
      fun b => ⟨b.emitter, ⟨spec, settings.file, siblings⟩⟩ := by
  obtain ⟨all, hall, ⟨⟩⟩ := Outcome.bind_eq_ok_iff.mp h
  rw [Outcome.mapM_eq_ok_iff, fileEmitter_eq, List.forall₂_map_left_iff] at hall
  have hall' : List.Forall₂ Eq
      (e.builtins.map fun b => (⟨b.emitter, ⟨spec, settings.file, siblings⟩⟩ : Participant))
      all := by
    rw [List.forall₂_map_left_iff]
    refine hall.imp fun b p hp => ?_
    obtain ⟨o, ho, rfl⟩ := FileEmitter.participant_eq_ok_iff.mp hp
    -- Options are there because the file shares its own.
    cases hshare : settings.file.shareOptions with
    | true =>
      rw [Slot.settled?, hshare] at ho
      cases ho
      rfl
    | false =>
      rw [Slot.settled?, hshare] at ho
      cases ho
  rw [List.forall₂_eq_eq_eq] at hall'
  rw [← hall', List.filter_map]
  rfl

/-- **The bodies in the file of an entry** are the pieces of all its emitters,
and nothing is put between them but empty lines. -/
theorem exists_pieces_of_generate {file : SourceFile}
    (h : (e.fileEmitter settings).generate spec siblings = .ok file) :
    ∃ above level pieces below,
      file.content = above ++ Bodies.separated settings.file.emitterSpacing pieces ++ below ∧
      List.Forall₂
        (fun b s => b.piece ⟨spec, settings.file, siblings⟩ level settings.indent = .ok s)
        e.builtins pieces := by
  obtain ⟨target, containing, ps, outer, inner, w, -, hps, -, -, hbody, rfl⟩ :=
    FileEmitter.generate_eq_ok_iff.mp h
  have hsettings : (e.fileEmitter settings).settings = settings := by rw [fileEmitter_eq]
  have hindent := congrArg Writer.indent
    ((e.fileEmitter settings).writeHead_eq spec ps outer inner target containing)
  generalize (e.fileEmitter settings).writeHead spec ps outer inner target containing = head at *
  replace hindent : head.indent = settings.indent := hindent.trans (by rw [hsettings])
  rw [participants_eq_filter hps, FileEmitter.writeBody_eq_after, hsettings] at hbody
  obtain ⟨written, hwritten, rfl⟩ := Bodies.exists_pieces_of_after
    ((e.builtins.filter fun b => b.emitter.accepts ⟨spec, settings.file, siblings⟩).map
      fun b => (b, ⟨spec, settings.file, siblings⟩)) [] (by rw [List.map_map]; exact hbody)
  rw [List.forall₂_map_left_iff, hindent] at hwritten
  obtain ⟨pieces, hpieces, hfilter⟩ := exists_pieces_of_filter
    (R := fun (b : Builtin) s =>
      b.piece ⟨spec, settings.file, siblings⟩ head.level settings.indent = .ok s)
    (fun b hb => Builtin.piece_of_declined hb _ _) hwritten
  refine ⟨head.text, head.level, pieces, closeLines head.indent head.level, ?_, hpieces⟩
  rw [Writer.closeAll_eq, List.nil_append, Bodies.separated, Bodies.separated, hfilter]
  rfl

end TypeEntry

/-! ### Agreement -/

namespace Manifest

variable {m : Manifest} {e : TypeEntry}

/-- **The signature of a member**, read off its entry: the type that it stands
for, and the token for its name. -/
def signature (m : Manifest) (member : MemberEntry) : Signature :=
  ⟨(m.resolve member.type).sourceName, Identifier.escape member.name⟩

theorem signature_memberOf (m : Manifest) (declaring : TypeRef) (member : MemberEntry) :
    (m.memberOf declaring member).signature = m.signature member ∧
      (m.memberOf declaring member).attributes = member.attributes := by
  have hfields : (m.memberOf declaring member).type = m.resolve member.type ∧
      (m.memberOf declaring member).name = member.name ∧
      (m.memberOf declaring member).attributes = member.attributes := by
    rw [memberOf]
    generalize m.resolve member.type = type
    cases member.field <;> exact ⟨rfl, rfl, rfl⟩
  obtain ⟨htype, hname, hattributes⟩ := hfields
  refine ⟨?_, hattributes⟩
  rw [Member.signature, Member.token, htype, hname, signature]

/-- **The members of an entry** that can be declared have their lines, which
declare the signatures that are read off the entry. -/
theorem exists_lines_memberOf (m : Manifest) (declaring : TypeRef) {members : List MemberEntry}
    (h : ∀ member ∈ members, ∃ s, (m.memberOf declaring member).declaration = .ok s) :
    ∃ lines : List (List String),
      List.Forall₂ (fun member ls => ∃ line, (m.signature member).Declares line ∧
          ls = member.attributes.map (fun a => "[" ++ a ++ "]") ++ [line]) members lines ∧
      ∀ level i, (members.map (m.memberOf declaring)).mapM (Member.text i level) =
        .ok (lines.map (linesText i level)) := by
  obtain ⟨lines, hlines, htexts⟩ := Member.exists_lines (List.forall_mem_map.mpr h)
  rw [List.forall₂_map_left_iff] at hlines
  refine ⟨lines, hlines.imp fun member ls => ?_, htexts⟩
  rintro ⟨line, hline, rfl⟩
  obtain ⟨hsignature, hattributes⟩ := m.signature_memberOf declaring member
  exact ⟨line, hsignature ▸ hline, by rw [Member.attributeLines, hattributes]⟩

/-- The target of the specification of an entry is its description. -/
theorem target_specOf {spec : TypeSpec} (h : m.specOf e = .ok spec) :
    spec.target = .desc (m.describe e) := by
  obtain ⟨plain, hplain, hrest⟩ := Outcome.bind_eq_ok_iff.mp h
  obtain rfl : e.documented plain = spec := Except.ok.inj hrest
  obtain ⟨declarations, -, ⟨⟩⟩ := Outcome.bind_eq_ok_iff.mp (emitting_eq_ok_iff.mp hplain)
  rw [TypeEntry.documented_eq]

/-- **Declaration, comparison and hash agree.** In a manifest that passes, an
entry has a specification, and each of its members has a signature that
declares, compares and hashes it. Where the type can be made equatable, one
emitter puts the members one below the other, each with its attributes above a
line that declares its signature, and the other puts the text of equality for
the same signatures in the same order, whatever the options are. In a file of
the entry the bodies are the pieces of its emitters, and those of the two are
these texts at one level. No token is a reserved keyword, and members with
different names have different tokens. -/
theorem members_agree {source file : String} (hvalid : m.validate source file = .ok ())
    (he : e ∈ m.types) :
    let signatures := e.members.map m.signature
    ∃ spec lines, m.specOf e = .ok spec ∧
      List.Forall₂ (fun member ls => ∃ line, (m.signature member).Declares line ∧
          ls = member.attributes.map (fun a => "[" ++ a ++ "]") ++ [line])
        e.members lines ∧
      (∀ options siblings, Emitter.equatable.accepts ⟨spec, options, siblings⟩ = true →
        (∀ w, Emitter.properties.write ⟨spec, options, siblings⟩ w =
            .ok (w.put (linesText w.indent w.level lines.flatten)) ∧
          Emitter.equatable.write ⟨spec, options, siblings⟩ w =
            .ok (w.put (equalityText ⟨spec, options, siblings⟩ (m.describe e) signatures
              w.level w.indent))) ∧
        ∀ settings generated, m.fileOf settings siblings e = .ok generated →
          ∃ above level pieces below,
            generated.content =
              above ++ Bodies.separated settings.file.emitterSpacing pieces ++ below ∧
            List.Forall₂ (fun b piece =>
                (b = .properties → piece = linesText settings.indent level lines.flatten) ∧
                (b = .equatable → piece = equalityText ⟨spec, settings.file, siblings⟩
                  (m.describe e) signatures level settings.indent))
              e.builtins pieces) ∧
      (∀ s ∈ signatures, Identifier.isKeyword s.token = false) ∧
      ∀ member ∈ e.members, ∀ other ∈ e.members, member.name ≠ other.name →
        (m.signature member).token ≠ (m.signature other).token := by
  intro signatures
  obtain ⟨hm, -⟩ := validate_ok_iff.mp hvalid
  have hentry := hm.entries e he
  have hdeclarable := hentry.declarable
  obtain ⟨spec, hspec, -, -, hmembers⟩ := m.specOf_of_declarable hdeclarable
  have hsignatures : spec.members.map Member.signature = signatures := by
    rw [hmembers, List.map_map]
    exact List.map_congr_left fun member _ => (m.signature_memberOf e.toRef member).1
  obtain ⟨lines, hlines, htexts⟩ := m.exists_lines_memberOf e.toRef fun member hmember =>
    m.declaration_memberOf e.toRef (hdeclarable.members member hmember)
  rw [← hmembers] at htexts
  refine ⟨spec, lines, hspec, hlines, fun options siblings haccepts => ?_, ?_, ?_⟩
  · -- What the equatable emitter writes is known for all options, those of a file among them.
    have hequatable : ∀ options level i, Builtin.equatable.piece ⟨spec, options, siblings⟩ level i =
        .ok (equalityText ⟨spec, options, siblings⟩ (m.describe e) signatures level i) := by
      intro options level i
      rw [← hsignatures]
      exact Builtin.equatable_piece ⟨spec, options, siblings⟩ (target_specOf hspec) haccepts level i
    refine ⟨fun w => ⟨?_, ?_⟩, fun settings generated hgenerated => ?_⟩
    · exact (Builtin.properties.write_eq _ w).trans
        (by rw [Builtin.properties_piece (htexts _ _)]; rfl)
    · exact (Builtin.equatable.write_eq _ w).trans (by rw [hequatable]; rfl)
    · rw [fileOf, hspec, Outcome.ok_bind, emitting_eq_ok_iff] at hgenerated
      obtain ⟨above, level, pieces, below, hcontent, hpieces⟩ :=
        TypeEntry.exists_pieces_of_generate hgenerated
      refine ⟨above, level, pieces, below, hcontent, hpieces.imp fun b piece hpiece => ⟨?_, ?_⟩⟩
      · rintro rfl
        exact Except.ok.inj (hpiece.symm.trans (Builtin.properties_piece (htexts _ _)))
      · rintro rfl
        exact Except.ok.inj (hpiece.symm.trans (hequatable _ _ _))
  · rw [List.forall_mem_map]
    intro member _
    change Identifier.isKeyword (Identifier.escape member.name) = false
    exact Identifier.isKeyword_escape member.name
  · intro member hmember other hother hne hsame
    change Identifier.escape member.name = Identifier.escape other.name at hsame
    exact hne ((Identifier.escape_inj (hentry.members member hmember).name
      (hentry.members other hother).name).mp hsame)

/-- A field that is called like a keyword, and a property whose type is a struct
of the manifest. -/
theorem members_agree_keyword :
    let order : TypeEntry :=
      { name := "Order", emitters := [.properties, .equatable]
        members := [{ name := "class", type := "int [ ] ?", field := true },
          { name := "Total", type := "Price", isReadOnly := true }] }
    let price : TypeEntry := { name := "Price", ns := some "Shop", kind := some .structType }
    let m : Manifest := { types := [order, price] }
    let signatures : List Signature := [⟨"int[]?", "@class"⟩, ⟨"global::Shop.Price", "Total"⟩]
    m.validate "" "shop.toml" = .ok () ∧ order ∈ m.types ∧
      ∃ spec, m.specOf order = .ok spec ∧
        Emitter.equatable.accepts ⟨spec, {}, m.siblings⟩ = true ∧
        ∀ w, Emitter.equatable.write ⟨spec, {}, m.siblings⟩ w = .ok (w.put
          (equalityText ⟨spec, {}, m.siblings⟩ (m.describe order) signatures w.level
            w.indent)) := by
  intro order price m signatures
  have hvalid : m.validate "" "shop.toml" = .ok () := by decide +kernel
  have hmem : order ∈ m.types := List.mem_cons_self ..
  obtain ⟨spec, lines, hspec, -, htexts, -⟩ := members_agree hvalid hmem
  have haccepts : Emitter.equatable.accepts ⟨spec, {}, m.siblings⟩ = true := by
    have hspecs : (m.specOf order).toOption.map
        (fun spec => Emitter.equatable.accepts ⟨spec, {}, m.siblings⟩) = some true := by
      decide +kernel
    rw [hspec] at hspecs
    exact Option.some.inj hspecs
  have hsignatures : order.members.map m.signature = signatures := by decide +kernel
  rw [hsignatures] at htexts
  exact ⟨hvalid, hmem, spec, hspec, haccepts, fun w => ((htexts {} m.siblings haccepts).1 w).2⟩

end Manifest

end SharpSource
