import PathCover.Proofs.Json.ReadBack
import PathCover.Rule.Json

/-!
# Rule sets are read back from their JSON text

Every field of a rule that is there is written and read back under its name; every field that is
absent is left out and comes back as absent.  The bindings come back in their order, because each is
put behind those before it as long as no qualifier is bound twice.
-/

namespace PathCover

open Json

section Fields

variable {α σ : Type} {member : String → σ → Read σ}

/-- A field that may be left out brings a reader of members to the state that holds it, or leaves it
where it is. -/
theorem Json.Gathers.optional {name : String} {toJson : α → Json} {given : Option α}
    (update : Option (Option α) → σ)
    (reads : ∀ part, given = some part →
      ReadsField (member name (update none)) (toJson part) (update (some (some part)))) :
    Gathers member (update none) (optionalField name (given.map toJson))
      (update (given.map some)) := by
  cases given with
  | none => exact .nothing _
  | some part => exact .more (reads part rfl) (.nothing _)

theorem getD_map_some (given : Option α) : (given.map some).getD none = given := by
  cases given with
  | none => rfl
  | some part => rfl

end Fields

namespace Selection

theorem gathers (selection : Selection) :
    Gathers readMember {} (("path", .text selection.path) ::
        optionalField "label" (selection.label.map .text))
      ⟨some selection.path, selection.label.map some⟩ := by
  have path : ReadsField (readMember "path" {}) (.text selection.path)
      ⟨some selection.path, none⟩ := by
    rw [readMember]
    exact ((reads_text _).field "path").made _ rfl
  have label : Gathers readMember ⟨some selection.path, none⟩
      (optionalField "label" (selection.label.map .text))
      ⟨some selection.path, selection.label.map some⟩ := by
    apply Gathers.optional (Fields.mk (some selection.path))
    intro label _
    rw [readMember]
    exact (((reads_text label).given (opens_text label)).field "label").made _ rfl
  exact .more path label

/-- A selection is read back. -/
theorem reads (selection : Selection) (room : Nat) :
    Reads (read (room + 1)) selection.toJson selection := by
  apply reads_record (gathers selection) rfl
  show (pure (Selection.mk selection.path _) : Read Selection) = _
  rw [getD_map_some]

end Selection

namespace Dependent

theorem gathers (dependent : Dependent) :
    Gathers readMember {} (("attribute", .text dependent.target) ::
        (optionalField "default" (dependent.fallback.map .text) ++
          optionalField "label" (dependent.label.map .text)))
      ⟨some dependent.target, dependent.fallback.map some, dependent.label.map some⟩ := by
  have target : ReadsField (readMember "attribute" {}) (.text dependent.target)
      ⟨some dependent.target, none, none⟩ := by
    rw [readMember]
    exact ((reads_text _).field "attribute").made _ rfl
  have fallback : Gathers readMember ⟨some dependent.target, none, none⟩
      (optionalField "default" (dependent.fallback.map .text))
      ⟨some dependent.target, dependent.fallback.map some, none⟩ := by
    apply Gathers.optional fun fallback => Fields.mk (some dependent.target) fallback none
    intro fallback _
    rw [readMember]
    exact (((reads_text fallback).given (opens_text fallback)).field "default").made _ rfl
  have label : Gathers readMember ⟨some dependent.target, dependent.fallback.map some, none⟩
      (optionalField "label" (dependent.label.map .text))
      ⟨some dependent.target, dependent.fallback.map some, dependent.label.map some⟩ := by
    apply Gathers.optional (Fields.mk (some dependent.target) (dependent.fallback.map some))
    intro label _
    rw [readMember]
    exact (((reads_text label).given (opens_text label)).field "label").made _ rfl
  exact .more target (fallback.append label)

/-- A dependent attribute is read back. -/
theorem reads (dependent : Dependent) (room : Nat) :
    Reads (read (room + 1)) dependent.toJson dependent := by
  apply reads_record (gathers dependent) rfl
  show (pure (Dependent.mk dependent.target _ _) : Read Dependent) = _
  rw [getD_map_some, getD_map_some]

end Dependent

namespace Rule

/-! ## Bindings -/

/-- A qualifier that is not bound yet is bound behind all others. -/
theorem bind_new {qualifier : String} (uri : String) {bindings : List (String × String)}
    (isNew : qualifier ∉ bindings.map Prod.fst) :
    bind qualifier uri bindings = bindings ++ [(qualifier, uri)] := by
  induction bindings with
  | nil => rfl
  | cons binding bindings ih =>
      have apart : binding.1 ≠ qualifier := by
        intro same
        exact isNew (by rw [List.map_cons, same]; exact List.mem_cons_self)
      have isNewBehind : qualifier ∉ bindings.map Prod.fst := fun bound =>
        isNew (List.mem_cons_of_mem _ bound)
      rw [bind, if_neg apart, ih isNewBehind, List.cons_append]

theorem gathers_bindings {before bindings : List (String × String)}
    (distinct : ((before ++ bindings).map Prod.fst).Nodup) :
    Gathers
      (fun qualifier bindings => do
        readColon
        return bind qualifier (← readText) bindings)
      before (bindings.map fun binding => (binding.1, .text binding.2)) (before ++ bindings) := by
  induction bindings generalizing before with
  | nil =>
      rw [List.append_nil]
      exact .nothing before
  | cons binding bindings ih =>
      obtain ⟨qualifier, uri⟩ := binding
      have regrouped : before ++ (qualifier, uri) :: bindings =
          before ++ [(qualifier, uri)] ++ bindings := by
        rw [List.append_assoc, List.singleton_append]
      have isNew : qualifier ∉ before.map Prod.fst := by
        intro bound
        rw [List.map_append] at distinct
        exact (List.nodup_append.mp distinct).2.2 qualifier bound qualifier List.mem_cons_self rfl
      have first : ReadsField
          (do
            readColon
            return bind qualifier (← readText) before)
          (.text uri) (before ++ [(qualifier, uri)]) := by
        rw [← bind_new uri isNew]
        intro rest
        rw [run_then (run_readColon _), run_then (reads_text uri rest)]
        rfl
      rw [regrouped] at distinct ⊢
      exact .more first (ih distinct)

/-- Bindings of distinct qualifiers are read back in their order. -/
theorem reads_bindings {bindings : List (String × String)}
    (distinct : (bindings.map Prod.fst).Nodup) (room : Nat) :
    Reads (readBindings (room + 1)) (bindingsJson bindings) bindings := by
  intro rest
  have gathers : Gathers _ [] _ bindings := gathers_bindings distinct
  rw [bindingsJson, written_object, List.cons_append, List.append_assoc, List.singleton_append,
    readBindings, run_then (run_peek (by decide) _)]
  have read := run_members gathers (fun bindings => endObject >>= fun _ => pure bindings) rest
  show (drop >>= fun _ => _).run _ = _
  rw [run_then (run_drop _ _)]
  exact read

/-! ## Rules -/

theorem gathers (rule : Rule) (distinct : (rule.bindings.map Prod.fst).Nodup) (room : Nat) :
    Gathers (readMember (room + 1)) {}
      (optionalField "namespaceBindings"
          (if rule.bindings.isEmpty then none else some (bindingsJson rule.bindings)) ++
        [("context", .text rule.context), ("attribute", .text rule.target)] ++
        optionalField "selection" (rule.selection.map Selection.toJson) ++
        optionalField "dependent" (rule.dependent.map Dependent.toJson))
      ⟨if rule.bindings.isEmpty then none else some rule.bindings, some rule.context,
        some rule.target, rule.selection.map some, rule.dependent.map some⟩ := by
  have bindings : Gathers (readMember (room + 1)) {}
      (optionalField "namespaceBindings"
        (if rule.bindings.isEmpty then none else some (bindingsJson rule.bindings)))
      ⟨if rule.bindings.isEmpty then none else some rule.bindings, none, none, none, none⟩ := by
    split
    · exact .nothing _
    · apply Gathers.more _ (.nothing _)
      rw [readMember]
      exact ((reads_bindings distinct room).field "namespaceBindings").made _ rfl
  generalize (if rule.bindings.isEmpty then none else some rule.bindings) = given at bindings ⊢
  have context : ReadsField (readMember (room + 1) "context" ⟨given, none, none, none, none⟩)
      (.text rule.context) ⟨given, some rule.context, none, none, none⟩ := by
    rw [readMember]
    exact ((reads_text _).field "context").made _ rfl
  have target : ReadsField
      (readMember (room + 1) "attribute" ⟨given, some rule.context, none, none, none⟩)
      (.text rule.target) ⟨given, some rule.context, some rule.target, none, none⟩ := by
    rw [readMember]
    exact ((reads_text _).field "attribute").made _ rfl
  have selection : Gathers (readMember (room + 1))
      ⟨given, some rule.context, some rule.target, none, none⟩
      (optionalField "selection" (rule.selection.map Selection.toJson))
      ⟨given, some rule.context, some rule.target, rule.selection.map some, none⟩ := by
    apply Gathers.optional fun selection =>
      Fields.mk given (some rule.context) (some rule.target) selection none
    intro selection _
    rw [readMember]
    exact (((Selection.reads selection room).given (opens_object _)).field "selection").made _ rfl
  have dependent : Gathers (readMember (room + 1))
      ⟨given, some rule.context, some rule.target, rule.selection.map some, none⟩
      (optionalField "dependent" (rule.dependent.map Dependent.toJson))
      ⟨given, some rule.context, some rule.target, rule.selection.map some,
        rule.dependent.map some⟩ := by
    apply Gathers.optional
      (Fields.mk given (some rule.context) (some rule.target) (rule.selection.map some))
    intro dependent _
    rw [readMember]
    exact (((Dependent.reads dependent room).given (opens_object _)).field "dependent").made _ rfl
  have required : Gathers (readMember (room + 1)) ⟨given, none, none, none, none⟩
      [("context", .text rule.context), ("attribute", .text rule.target)]
      ⟨given, some rule.context, some rule.target, none, none⟩ :=
    .more context (.more target (.nothing _))
  exact ((bindings.append required).append selection).append dependent

/-- A rule that binds no qualifier twice is read back. -/
theorem reads (rule : Rule) (distinct : (rule.bindings.map Prod.fst).Nodup) (room : Nat) :
    Reads (read (room + 2)) rule.toJson rule := by
  apply reads_record (rule.gathers distinct room) rfl
  have bindings : (if rule.bindings.isEmpty then none else some rule.bindings).getD [] =
      rule.bindings := by
    split
    · exact (List.isEmpty_iff.mp ‹_›).symm
    · rfl
  show (pure (Rule.mk _ rule.context rule.target _ _) : Read Rule) = _
  rw [bindings, getD_map_some, getD_map_some]

end Rule

namespace RuleSet

theorem reads {rules : RuleSet} (distinct : ∀ rule ∈ rules, (rule.bindings.map Prod.fst).Nodup)
    (room : Nat) : Reads (read (room + 4)) (toJson rules) rules := by
  have all : Reads (readList (room + 3) Rule.read) (.array (rules.map Rule.toJson)) rules := by
    apply reads_list
    intro rule isRule
    exact ⟨opens_object _, rule.reads (distinct rule isRule) room⟩
  have gathers : Gathers (readMember (room + 3)) none
      [("autoCompletes", .array (rules.map Rule.toJson))] (some rules) := by
    apply Gathers.more _ (.nothing _)
    rw [readMember]
    exact all.field "autoCompletes"
  exact reads_record gathers rfl rfl

/-- Reading the text that was written for a rule set gives the same rule set, with the bindings of
each rule in the same order, as long as no rule binds a qualifier twice. -/
theorem ofJsonText_toJsonText {rules : RuleSet}
    (distinct : ∀ rule ∈ rules, (rule.bindings.map Prod.fst).Nodup) :
    ofJsonText (toJsonText rules) = .ok rules :=
  readWhole_compact (reads distinct 123)

theorem ofJsonText_toJsonText_escapes :
    let plain : Rule := ⟨[], "//w", "@lemma", none, none⟩
    let full : Rule :=
      ⟨[("xml", "urn:\"x\"\\"), ("", "\x00\x1f\x7f"), ("é😀", "")], "//t:w\n\t", "@\x08\x0c\r/",
        some ⟨"text()", some "\x7b\"autoCompletes\":[]\x7d"⟩, some ⟨"@pos", none, some ""⟩⟩
    let rules : RuleSet := [full, plain, full]
    (∀ rule ∈ rules, (rule.bindings.map Prod.fst).Nodup) ∧
      ofJsonText (toJsonText rules) = .ok rules := by
  intro plain full rules
  have distinct : ∀ rule ∈ rules, (rule.bindings.map Prod.fst).Nodup := by
    simp [rules, full, plain]
  exact ⟨distinct, ofJsonText_toJsonText distinct⟩

end RuleSet

end PathCover
