import SharpSource.Proofs.BaseLists
import SharpSource.Proofs.UsingOrder

/-!
# Repeated entries of a base list

What a target derives from comes from four places: its own declaration, the base
type of the options, and the interfaces of the options and of the emitters. The
interfaces are each there once, and a declaration with a list takes only those
that are not on it, so nothing is listed twice there. A bracket that is left open
does no harm, since then all that is added is part of the last entry, which is
unlike those before it (`BaseList.listsOnce_append_behind`).

A declaration without a list takes the base type and all the interfaces, and
nobody looks whether the base type is one of them. So this is the one way that
an entry is repeated (`BaseList.listsOnce_addition_iff`), and the declaration
that a file has lists nothing twice exactly when it is not taken
(`FileEmitter.declaration_listsOnce_iff`).
-/

namespace SharpSource

namespace BaseList

/-- **A head lists nothing twice.** -/
def ListsOnce (head : List Char) : Prop :=
  ∀ listed ∈ ofHead? head, listed.Nodup

instance (head : List Char) : Decidable (ListsOnce head) :=
  inferInstanceAs (Decidable (∀ listed ∈ ofHead? head, _))

theorem listsOnce_of_none {head : List Char} (h : ofHead? head = none) : ListsOnce head := by
  rw [ListsOnce, h]
  simp

theorem listsOnce_iff {head : List Char} {listed : List String} (h : ofHead? head = some listed) :
    ListsOnce head ↔ listed.Nodup := by
  rw [ListsOnce, h]
  simp

variable {head : List Char} {names : List String}

/-- **A list takes names that are not on it.** Then nothing is listed twice,
whether the names are read back one by one or, behind an open bracket, all
together in the last entry. -/
theorem listsOnce_append_behind {listed : List String} (h : ofHead? head = some listed)
    (hlisted : listed.Nodup) (hnames : names.Nodup) (hnew : ∀ n ∈ names, n ∉ listed)
    (hentries : ∀ n ∈ names, IsEntry n.toList) (htrimmed : ∀ n ∈ names, Text.trim n = n) :
    ListsOnce (head ++ (behind names).toList) := by
  rcases Nat.eq_zero_or_pos (depthBehind 0 head) with hclosed | hopen
  · rw [listsOnce_iff (ofHead?_append_behind h hclosed hentries), map_trim_eq_self htrimmed]
    exact List.nodup_append'.mpr ⟨hlisted, hnames, fun n hn hn' => hnew n hn' hn⟩
  · have hbehind := balanced_behind hentries
    obtain ⟨init, last, rfl, hinit, hlast, hread⟩ :=
      ofHead?_append_of_open h hopen hbehind (head?_behind names)
    rw [listsOnce_iff hread]
    -- The bracket is open at the end of the last entry, and at the end of no other one.
    have hlonger : depthBehind 0 (Text.trimChars (last ++ (behind names).toList)) ≠ 0 := by
      rw [depthBehind_trimChars, depthBehind_append, hbehind.depthBehind, hlast]
      omega
    rw [List.nodup_append'] at hlisted ⊢
    refine ⟨hlisted.1, List.nodup_singleton _, ?_⟩
    rw [List.disjoint_singleton]
    intro hmem
    have hzero := hinit _ hmem
    rw [String.toList_ofList] at hzero
    exact hlonger hzero

/-- **A list that is started** has the names that are written, as long as no
bracket is open in front of it: then a name that is there twice is listed
twice. -/
theorem listsOnce_append_begun_iff {name : String} (h : ofHead? head = none)
    (hentries : ∀ n ∈ name :: names, IsEntry n.toList)
    (htrimmed : ∀ n ∈ name :: names, Text.trim n = n) :
    ListsOnce (head ++ (" : " ++ ", ".intercalate (name :: names)).toList) ↔
      (depthBehind 0 head = 0 → (name :: names).Nodup) := by
  rcases Nat.eq_zero_or_pos (depthBehind 0 head) with hclosed | hopen
  · rw [listsOnce_iff (ofHead?_begun h hclosed hentries), map_trim_eq_self htrimmed]
    exact ⟨fun hnodup _ => hnodup, fun hnodup => hnodup hclosed⟩
  · have hnone := listsOnce_of_none (ofHead?_begun_of_open h hopen hentries)
    exact iff_of_true hnone fun hclosed => absurd hclosed hopen.ne'

/-- A base type and interfaces that are each there once are names that are each
there once, unless the base type is one of the interfaces. -/
theorem nodup_base_append_iff (base : Option String) {interfaces : List String}
    (honce : interfaces.Nodup) :
    (Text.trimmedNonempty base.toList ++ interfaces).Nodup ↔
      ¬∃ b ∈ Text.trimmedNonempty base.toList, b ∈ interfaces := by
  have hbase : (Text.trimmedNonempty base.toList).Nodup := by
    cases base with
    | none => exact List.nodup_nil
    | some b => exact (List.nodup_singleton (Text.trim b)).filter _
  rw [List.nodup_append', not_exists]
  simp only [not_and]
  exact ⟨fun h b hb hmem => h.2.2 hb hmem, fun h => ⟨hbase, honce, fun b hb hmem => h b hb hmem⟩⟩

/-- **The one way that an entry is repeated.** A head that lists nothing twice
takes interfaces, each once, without listing anything twice, unless it has no
list, no bracket is open in it, and the base type is among the interfaces. -/
theorem listsOnce_addition_iff {base : Option String} {interfaces : List String}
    (hhead : ListsOnce head) (honce : interfaces.Nodup)
    (hentries : ∀ n ∈ Text.trimmedNonempty base.toList ++ interfaces, IsEntry n.toList)
    (htrimmed : ∀ n ∈ Text.trimmedNonempty base.toList ++ interfaces, Text.trim n = n) :
    ListsOnce (head ++ (addition head base interfaces).toList) ↔
      ¬(ofHead? head = none ∧ depthBehind 0 head = 0 ∧
        ∃ b ∈ Text.trimmedNonempty base.toList, b ∈ interfaces) := by
  cases hlist : ofHead? head with
  | some listed =>
    have hall : ∀ n ∈ interfaces.filter (· ∉ listed),
        n ∈ Text.trimmedNonempty base.toList ++ interfaces :=
      fun n hn => List.mem_append_right _ (List.mem_of_mem_filter hn)
    rw [addition_eq_behind hlist]
    refine iff_of_true ?_ (by simp)
    exact listsOnce_append_behind hlist ((listsOnce_iff hlist).mp hhead) (honce.filter _)
      (fun n hn => by simpa using (List.mem_filter.mp hn).2) (fun n hn => hentries n (hall n hn))
      fun n hn => htrimmed n (hall n hn)
  | none =>
    simp only [addition, hlist]
    rw [not_and, not_and, ← nodup_base_append_iff base honce]
    cases hadd : Text.trimmedNonempty base.toList ++ interfaces with
    | nil =>
      refine iff_of_true ?_ fun _ _ => List.nodup_nil
      simpa using listsOnce_of_none hlist
    | cons name names =>
      rw [hadd] at hentries htrimmed
      rw [listsOnce_append_begun_iff hlist hentries htrimmed]
      exact ⟨fun h _ => h, fun h => h trivial⟩

/-! ### The constraints -/

/-- A declaration is its head and its constraints, and these are none or start
with their word. -/
theorem eq_append_of_cutConstraints {declaration constraints : List Char}
    (h : cutConstraints declaration = (head, constraints)) :
    declaration = head ++ constraints ∧
      (constraints = [] ∨ " where ".toList <+: constraints) := by
  rw [cutConstraints] at h
  split at h
  · rename_i before behind hbreak
    obtain ⟨rfl, rfl⟩ := Prod.mk.inj h
    exact ⟨Text.eq_append_of_breakAt? hbreak, Or.inr (List.prefix_append _ _)⟩
  · obtain ⟨rfl, rfl⟩ := Prod.mk.inj h
    exact ⟨(List.append_nil _).symm, Or.inl rfl⟩

end BaseList

namespace FileEmitter

/-! ### The declaration in a file -/

/-- **The declaration of a target**, with all that it is given to derive
from. -/
def declarationLine (o : FileOptions) (ps : List Participant) (target : String) : String :=
  BaseList.extend (Declaration.splitLeading target).2 o.baseType (interfacesOf o ps)

/-- The names that a target can be given to derive from: the base type, if there
is one that is not blank, and the interfaces. -/
def derivesFrom (o : FileOptions) (ps : List Participant) : List String :=
  Text.trimmedNonempty o.baseType.toList ++ interfacesOf o ps

theorem trim_of_mem_derivesFrom {o : FileOptions} {ps : List Participant} {n : String}
    (h : n ∈ derivesFrom o ps) : Text.trim n = n := by
  rcases List.mem_append.mp h with hbase | hinterface
  · exact Text.trim_of_mem_trimmedNonempty hbase
  · exact Text.trim_of_mem_trimmedNonempty (Text.mem_distinct.mp hinterface)

/-- **A file has the declaration of its target** on a line, above the brace that
opens the body. -/
theorem exists_declarationLine {f : FileEmitter} {spec : TypeSpec} {ps : List Participant}
    {outer inner : List String} {target : String} {containing : List String} {w : Writer}
    (hops : ∀ p ∈ ps, p.emitter.WorksByOperations)
    (h : f.writeBody ps (f.writeHead spec ps outer inner target containing) = .ok w) :
    let level := baseLevel f.settings.file spec.ns + containing.length
    ∃ before rest, w.closeAll.text = before ++
      (Writer.lineText f.settings.indent level (declarationLine f.settings.file ps target) ++
        Layout.openLine f.settings.indent level) ++ rest := by
  intro level
  obtain ⟨-, closing, hclosing⟩ := (extends_writeBodies hops h).trans w.extends_closeAll
  obtain ⟨above, habove⟩ : ∃ above, targetLines f.settings.file spec ps target =
      above ++ [declarationLine f.settings.file ps target] := ⟨_, rfl⟩
  have hlines : ∀ i level, Layout.linesText i level (targetLines f.settings.file spec ps target) =
      Layout.linesText i level above ++
        Writer.lineText i level (declarationLine f.settings.file ps target) := fun i level => by
    rw [habove]
    simp [Layout.linesText]
  rw [hclosing, writeHead_eq]
  simp only [hlines]
  refine ⟨(f.writeTop spec.ns outer inner).text ++
    Layout.openings f.settings.indent (baseLevel f.settings.file spec.ns) containing.reverse ++
    Layout.linesText f.settings.indent level above, closing, ?_⟩
  simp only [level, String.append_assoc]

/-- **The base list of a file repeats nothing**, but for one case. Whenever a
file is generated, its target is declared on the line above the opening brace,
if all that emitters do is to write. The line is the head of the declaration,
with what is added behind it, and the constraints. When the head lists nothing
twice, and each name that is added is one entry, the line lists nothing twice
either, unless the declaration has no list, no bracket is open in it, and the
base type of the options is also one of the interfaces that the options and the
emitters bring. What is in front of the constraints is read as the head again,
as long as the word of the constraints is nowhere in it. -/
theorem declaration_listsOnce_iff {f : FileEmitter} {spec : TypeSpec} {siblings : Siblings}
    {file : SourceFile} (h : f.generate spec siblings = .ok file) :
    ∃ target containing ps,
      spec.declarations = target :: containing ∧ f.participants spec siblings = .ok ps ∧
      ((∀ slot ∈ f.slots, slot.emitter.WorksByOperations) →
        let level := baseLevel f.settings.file spec.ns + containing.length
        ∃ before rest, file.content = before ++
          (Writer.lineText f.settings.indent level (declarationLine f.settings.file ps target) ++
            Layout.openLine f.settings.indent level) ++ rest) ∧
      ∀ head constraints,
        BaseList.cutConstraints (Declaration.splitLeading target).2.toList = (head, constraints) →
        BaseList.ListsOnce head →
        (∀ n ∈ derivesFrom f.settings.file ps, BaseList.IsEntry n.toList) →
        ∃ longer, (declarationLine f.settings.file ps target).toList = longer ++ constraints ∧
          (BaseList.ListsOnce longer ↔
            ¬(BaseList.ofHead? head = none ∧ BaseList.depthBehind 0 head = 0 ∧
              ∃ b ∈ Text.trimmedNonempty f.settings.file.baseType.toList,
                b ∈ interfacesOf f.settings.file ps)) ∧
          (BaseList.FreeOfWhere head →
            (∀ n ∈ derivesFrom f.settings.file ps, BaseList.FreeOfWhere n.toList) →
            BaseList.cutConstraints (declarationLine f.settings.file ps target).toList =
              (longer, constraints)) := by
  obtain ⟨target, containing, ps, outer, inner, w, hspec, hps, -, -, hw, rfl⟩ :=
    generate_eq_ok_iff.mp h
  refine ⟨target, containing, ps, hspec, hps, ?_, ?_⟩
  · intro hops
    exact exists_declarationLine (forall_participants (P := fun e _ => e.WorksByOperations) hps
      fun slot hslot _ => hops slot hslot) hw
  · intro head constraints hcut honce hentries
    have hline : (declarationLine f.settings.file ps target).toList =
        head ++ (BaseList.addition head f.settings.file.baseType
          (interfacesOf f.settings.file ps)).toList ++ constraints := by
      rw [declarationLine, BaseList.extend, hcut]
      simp
    refine ⟨_, hline, ?_, ?_⟩
    · exact BaseList.listsOnce_addition_iff honce (Text.nodup_distinct _) hentries
        fun n hn => trim_of_mem_derivesFrom hn
    · intro hfree hnames
      rw [hline]
      exact BaseList.cutConstraints_append (hfree.append_addition hnames)
        (BaseList.eq_append_of_cutConstraints hcut).2

/-- A list takes what it lacks of the interfaces, of which the base type is one
and an emitter brings another. -/
theorem declaration_listsOnce_iff_listed :
    let snippet : Builtin :=
      .snippet { name := "raw", text := "", interfaces := ["IOrdered", "IEntity"] }
    let f : FileEmitter :=
      { settings := { file := { baseType := some "IEntity", interfaces := ["IEntity"] } }
        slots := [⟨snippet.emitter, some {}⟩] }
    let spec : TypeSpec :=
      { ns := none, declarations := ["public class Page<T> : IEntity where T : new()"],
        target := .ref (.ofName "Page<T>" .classType) }
    ∃ file before rest, f.generate spec .empty = .ok file ∧
      file.content = before ++ "public class Page<T> : IEntity, IOrdered where T : new()\n\x7b\n" ++
        rest ∧
      BaseList.ListsOnce "public class Page<T> : IEntity, IOrdered".toList := by
  intro snippet f spec
  have htaking : f.participants spec .empty = .ok [⟨snippet.emitter, ⟨spec, {}, .empty⟩⟩] := rfl
  have hfile : (f.generate spec .empty).map (fun _ => ()) = .ok () := by decide +kernel
  obtain ⟨file, hfile, -⟩ := Outcome.map_eq_ok_iff.mp hfile
  obtain ⟨target, containing, ps, hspec, hps, hcontent, hread⟩ := declaration_listsOnce_iff hfile
  obtain ⟨rfl, rfl⟩ := List.cons.inj hspec
  obtain rfl := Except.ok.inj (hps.symm.trans htaking)
  have hline : declarationLine f.settings.file [⟨snippet.emitter, ⟨spec, {}, .empty⟩⟩]
      "public class Page<T> : IEntity where T : new()" =
        "public class Page<T> : IEntity, IOrdered where T : new()" := by
    decide +kernel
  obtain ⟨before, rest, hcontent⟩ := hcontent fun slot hslot => by
    rw [List.mem_singleton.mp hslot]
    exact snippet.worksByOperations
  obtain ⟨longer, hlonger, honce, -⟩ := hread "public class Page<T> : IEntity".toList
    " where T : new()".toList (by decide +kernel) (by decide +kernel) (by decide +kernel)
  obtain rfl : "public class Page<T> : IEntity, IOrdered".toList = longer := by
    rw [hline] at hlonger
    refine List.append_cancel_right (Eq.trans ?_ hlonger)
    decide +kernel
  have hwritten : Writer.lineText f.settings.indent (baseLevel f.settings.file spec.ns + 0)
        "public class Page<T> : IEntity, IOrdered where T : new()" ++
      Layout.openLine f.settings.indent (baseLevel f.settings.file spec.ns + 0) =
        "public class Page<T> : IEntity, IOrdered where T : new()\n\x7b\n" := by
    decide +kernel
  refine ⟨file, before, rest, hfile, ?_, honce.mpr (by decide +kernel)⟩
  rw [hline] at hcontent
  exact hcontent.trans (congrArg (before ++ · ++ rest) hwritten)

/-- **A base type that is an interface, too**, is listed twice where there is no
list yet. -/
theorem generate_repeats_base :
    let f : FileEmitter :=
      { settings :=
          { file := { baseType := some "IEntity", interfaces := ["IEntity", "IOrdered"] } } }
    let spec : TypeSpec :=
      { ns := none, declarations := ["public class Order"],
        target := .ref (.ofName "Order" .classType) }
    BaseList.ofHead? "public class Order".toList = none ∧
      (∀ n ∈ ["IEntity", "IOrdered"], Text.trim n = n ∧ BaseList.IsEntry n.toList) ∧
      f.generate spec .empty = .ok ⟨"Order.g.cs",
        "// <auto-generated/>\n\n#nullable enable annotations\n#nullable disable warnings\n\n" ++
          "public class Order : IEntity, IEntity, IOrdered\n\x7b\n\x7d"⟩ ∧
      BaseList.ofHead? "public class Order : IEntity, IEntity, IOrdered".toList =
        some ["IEntity", "IEntity", "IOrdered"] ∧
      ¬BaseList.ListsOnce "public class Order : IEntity, IEntity, IOrdered".toList := by
  decide +kernel

end FileEmitter

end SharpSource
