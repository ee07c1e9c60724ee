import FeatureFlags.Proofs.Json.Records
import FeatureFlags.Proofs.Targeting.Rollout

/-!
# What targeting depends on

The targeting tree of a flag names attributes in the conditions of its rules (`named`), and it may
have a rollout (`HasRollout`). The rules are read from the tree one by one, so the names in the tree
are those that the rules look at (`named_eq_subjects`), and a part that cannot be read spoils the
whole tree (`refuses_of_malformed`).

A condition looks at one attribute, or at the targeting key, and a rollout looks at the targeting
key. So contexts that agree on what a flag names cannot be told apart by it
(`evaluator_reads_what_is_named`).
-/

namespace FeatureFlags

open Json Outcome

namespace Condition

variable {tree : Json} {condition : Condition}

/-- The attribute that the tree of a condition names. -/
def subjectOf? (tree : Json) : Option String :=
  (tree.part? record.names "attribute").bind toString?

theorem slot_subject :
    record.Slot "attribute" (fun origin x v => Reader.string origin x = .ok v) subject where
  mem := by decide
  fields := by
    simp only [record, List.forall_mem_cons]
    refine ⟨.inl ⟨rfl, Field.fills ?_ _ _⟩, .inr ⟨?_, Field.keeps ?_ _ _⟩,
      .inr ⟨?_, Field.keeps ?_ _ _⟩, by simp⟩
    all_goals first | exact fun _ _ => rfl | decide

theorem subjectOf?_eq (h : (record.reader {}).ofTree tree = .ok condition) :
    subjectOf? tree = some condition.subject := by
  obtain ⟨y, hy, hread⟩ := Record.required_slot_of_ofTree slot_subject (by decide)
    List.mem_cons_self rfl rfl h
  rw [subjectOf?, hy, Reader.string_ofTree.1 hread]
  rfl

end Condition

namespace Rule

variable {tree : Json} {rule : Rule}

/-- The attributes that the tree of a rule names. -/
def namedBy (tree : Json) : List String :=
  (tree.itemsAt record.names "conditions").filterMap Condition.subjectOf?

/-- The attributes that the conditions of a rule look at. -/
def subjects (rule : Rule) : List String := rule.conditions.map (·.subject)

theorem slot_conditions : record.Slot "conditions"
    (fun origin x vs => Reader.list (Condition.record.reader {}) origin x = .ok vs)
    conditions where
  mem := by decide
  fields := by
    simp only [record, List.forall_mem_cons]
    refine ⟨.inl ⟨rfl, Field.fills ?_ _ _⟩, .inr ⟨?_, Field.keeps ?_ _ _⟩, by simp⟩
    all_goals first | exact fun _ _ => rfl | decide

/-- The conditions of a rule are those in its tree. -/
theorem forall₂_conditions (h : (record.reader {}).ofTree tree = .ok rule) :
    List.Forall₂ (fun y c => (Condition.record.reader {}).ofTree y = .ok c)
      (tree.itemsAt record.names "conditions") rule.conditions :=
  Record.items_of_ofTree slot_conditions (by decide) rfl h

theorem namedBy_eq_subjects (h : (record.reader {}).ofTree tree = .ok rule) :
    namedBy tree = rule.subjects := by
  have each := forall₂_conditions h
  rw [namedBy, subjects]
  generalize tree.itemsAt record.names "conditions" = trees, rule.conditions = conditions at each ⊢
  induction each with
  | nil => rfl
  | cons hcondition _ ih =>
    rw [List.filterMap_cons_some (Condition.subjectOf?_eq hcondition), ih, List.map_cons]

/-- A rule cannot be read if one of its conditions cannot. -/
theorem refuses_of_condition {y : Json} (hy : y ∈ tree.itemsAt record.names "conditions")
    (refused : (Condition.record.reader {}).Refuses y) : (record.reader {}).Refuses tree :=
  Record.refuses_of_item slot_conditions (by decide) rfl hy refused

end Rule

namespace TargetingRules

variable {tree : Json} {targeting : TargetingRules}

/-- The trees of the rules of a targeting tree. -/
def ruleTrees (tree : Json) : List Json := tree.itemsAt record.names "rules"

/-- The attributes that a targeting tree names. -/
def named (tree : Json) : List String := (ruleTrees tree).flatMap Rule.namedBy

/-- A targeting tree with a rollout. -/
def HasRollout (tree : Json) : Prop :=
  ∃ rollout, tree.part? record.names "fractional" = some rollout ∧ rollout ≠ .null

/-- The attributes that the rules look at. -/
def subjects (targeting : TargetingRules) : List String := targeting.rules.flatMap (·.subjects)

theorem nodup_names : record.names.Nodup := by decide

theorem slot_rules : record.Slot "rules"
    (fun origin x vs => Reader.list (Rule.record.reader {}) origin x = .ok vs) rules where
  mem := by decide
  fields := by
    simp only [record, List.forall_mem_cons]
    refine ⟨.inl ⟨rfl, Field.fills ?_ _ _⟩, .inr ⟨?_, Field.keeps ?_ _ _⟩, by simp⟩
    all_goals first | exact fun _ _ => rfl | decide

theorem slot_fractional : record.Slot "fractional"
    (fun origin x v => Reader.optional (Fractional.record.reader {}) origin x = .ok v)
    fractional where
  mem := by decide
  fields := by
    simp only [record, List.forall_mem_cons]
    refine ⟨.inr ⟨?_, Field.keeps ?_ _ _⟩, .inl ⟨rfl, Field.fills ?_ _ _⟩, by simp⟩
    all_goals first | exact fun _ _ => rfl | decide

/-- The rules of a targeting tree are read one by one. -/
theorem forall₂_rules (h : ofJson tree = .ok targeting) :
    List.Forall₂ (fun y rule => (Rule.record.reader {}).ofTree y = .ok rule)
      (ruleTrees tree) targeting.rules :=
  Record.items_of_ofTree slot_rules nodup_names rfl h

/-- The names in a targeting tree are those that its rules look at. -/
theorem named_eq_subjects (h : ofJson tree = .ok targeting) : named tree = targeting.subjects := by
  have each := forall₂_rules h
  rw [named, subjects]
  generalize ruleTrees tree = trees, targeting.rules = rules at each ⊢
  induction each with
  | nil => rfl
  | cons hrule _ ih => rw [List.flatMap_cons, List.flatMap_cons, ih, Rule.namedBy_eq_subjects hrule]

/-- The rollout of a targeting tree is read from its tree. -/
theorem rollout_of_ofJson (h : ofJson tree = .ok targeting) {rollout : Json}
    (found : tree.part? record.names "fractional" = some rollout) (there : rollout ≠ .null) :
    ∃ fractional, (Fractional.record.reader {}).ofTree rollout = .ok fractional ∧
      targeting.fractional = some fractional := by
  obtain ⟨hnone, -⟩ | ⟨y, hy, hread⟩ := Record.slot_of_ofTree slot_fractional nodup_names h
  · cases hnone.symm.trans found
  · cases hy.symm.trans found
    obtain ⟨hnull, -⟩ | ⟨-, fractional, hfractional, hget⟩ := Reader.optional_ofTree.1 hread
    · exact absurd hnull there
    · exact ⟨fractional, hfractional, hget.symm⟩

theorem fractional_of_not_hasRollout (h : ofJson tree = .ok targeting) (none : ¬ HasRollout tree) :
    targeting.fractional = .none := by
  obtain ⟨-, hget, -⟩ | ⟨y, hy, hread⟩ := Record.slot_of_ofTree slot_fractional nodup_names h
  · exact hget
  · obtain ⟨-, hget⟩ | ⟨there, -⟩ := Reader.optional_ofTree.1 hread
    · exact hget
    · exact absurd ⟨y, hy, there⟩ none

/-- A targeting tree with a part that cannot be read. -/
inductive Malformed (tree : Json) : Prop where
  | rule {rule : Json} (there : rule ∈ ruleTrees tree)
    (refused : (Rule.record.reader {}).Refuses rule)
  | condition {rule condition : Json} (there : rule ∈ ruleTrees tree)
    (inside : condition ∈ rule.itemsAt Rule.record.names "conditions")
    (refused : (Condition.record.reader {}).Refuses condition)
  | rollout {rollout : Json} (there : tree.part? record.names "fractional" = some rollout)
    (present : rollout ≠ .null) (refused : (Fractional.record.reader {}).Refuses rollout)

theorem refuses_of_rule {y : Json} (hy : y ∈ ruleTrees tree)
    (refused : (Rule.record.reader {}).Refuses y) : (record.reader {}).Refuses tree :=
  Record.refuses_of_item slot_rules nodup_names rfl hy refused

theorem refuses_of_malformed (h : Malformed tree) : (record.reader {}).Refuses tree := by
  cases h with
  | rule there refused => exact refuses_of_rule there refused
  | condition there inside refused =>
    exact refuses_of_rule there (Rule.refuses_of_condition inside refused)
  | rollout there present refused =>
    intro targeting h
    obtain ⟨fractional, hfractional, -⟩ := rollout_of_ofJson h there present
    exact refused fractional hfractional

end TargetingRules

namespace FlagDefinition

/-- The attributes that the targeting of a flag names. -/
def attributesNamed (flag : FlagDefinition) : List String :=
  flag.targeting.elim [] TargetingRules.named

/-- A flag whose targeting has a rollout. -/
def HasRollout (flag : FlagDefinition) : Prop :=
  ∃ tree, flag.targeting = some tree ∧ TargetingRules.HasRollout tree

end FlagDefinition

/-! ## Contexts that cannot be told apart -/

namespace EvaluationContext

/-- Contexts that have the same in place of the given names, of which one stands for the targeting
key. -/
structure AgreeOn (names : List String) (a b : EvaluationContext) : Prop where
  attributes : ∀ name ∈ names, name ≠ Condition.targetingKeyName →
    a.attribute? name = b.attribute? name
  key : Condition.targetingKeyName ∈ names → a.targetingKey = b.targetingKey

theorem AgreeOn.mono {names more : List String} {a b : EvaluationContext} (h : AgreeOn more a b)
    (subset : names ⊆ more) : AgreeOn names a b where
  attributes name hname := h.attributes name (subset hname)
  key hname := h.key (subset hname)

end EvaluationContext

open EvaluationContext (AgreeOn)

variable {a b : EvaluationContext}

theorem Condition.holds_congr {condition : Condition} (agree : AgreeOn [condition.subject] a b) :
    condition.holds a = condition.holds b := by
  have same : condition.actual? a = condition.actual? b := by
    unfold actual?
    split
    · rename_i hname
      rw [agree.key (by simp [hname])]
    · rename_i hname
      exact agree.attributes _ List.mem_cons_self hname
  rw [holds, holds, same]

theorem Rule.applies_congr {rule : Rule} (agree : AgreeOn rule.subjects a b) :
    rule.applies a = rule.applies b := by
  rw [Bool.eq_iff_iff, applies, applies, List.all_eq_true, List.all_eq_true]
  refine forall₂_congr fun condition hcondition => ?_
  have subject : [condition.subject] ⊆ rule.subjects :=
    List.cons_subset.2 ⟨List.mem_map_of_mem hcondition, List.nil_subset _⟩
  rw [Condition.holds_congr (agree.mono subject)]

theorem Fractional.select_congr (fractional : Fractional) (flagKey : String)
    (key : a.targetingKey = b.targetingKey) :
    fractional.select flagKey a = fractional.select flagKey b := by
  rw [select, select, key]

namespace TargetingRules

variable {targeting : TargetingRules}

/-- The same rule comes first for contexts that agree on what the rules look at. -/
theorem find?_congr {rules : List Rule}
    (agree : AgreeOn (rules.flatMap (·.subjects)) a b) :
    rules.find? (·.applies a) = rules.find? (·.applies b) := by
  induction rules with
  | nil => rfl
  | cons rule rest ih =>
    rw [List.flatMap_cons] at agree
    rw [List.find?_cons, List.find?_cons,
      Rule.applies_congr (agree.mono (List.subset_append_left _ _)),
      ih (agree.mono (List.subset_append_right _ _))]

theorem select_congr {flagKey : String} (agree : AgreeOn targeting.subjects a b)
    (key : targeting.fractional.isSome = true → a.targetingKey = b.targetingKey) :
    targeting.select flagKey a = targeting.select flagKey b := by
  rw [select, select, find?_congr agree]
  cases targeting.rules.find? (·.applies b) with
  | some rule => rfl
  | none =>
    cases hfractional : targeting.fractional with
    | none => rfl
    | some fractional =>
      dsimp only
      rw [fractional.select_congr flagKey (key (by rw [hfractional]; rfl))]

variable {flag : FlagDefinition} {tree : Json}

theorem evaluator_of_untargeted (untargeted : flag.targeting = none) (context : EvaluationContext) :
    evaluator flag context = .ok none := by
  simp only [evaluator, untargeted]

theorem evaluator_of_unreadable (targeted : flag.targeting = some tree) {error : ReadError}
    (unreadable : ofJson tree = .error error) (context : EvaluationContext) :
    evaluator flag context = .error (.rule error.message) := by
  simp only [evaluator, targeted, unreadable]
  rfl

theorem evaluator_of_readable (targeted : flag.targeting = some tree)
    (readable : ofJson tree = .ok targeting) (context : EvaluationContext) :
    evaluator flag context = targeting.select flag.key context := by
  simp only [evaluator, targeted, readable]

/-- A flag selects the same for contexts that agree on what its targeting names, and on the targeting
key if it has a rollout. -/
theorem evaluator_congr (agree : AgreeOn flag.attributesNamed a b)
    (key : flag.HasRollout → a.targetingKey = b.targetingKey) :
    evaluator flag a = evaluator flag b := by
  cases targeted : flag.targeting with
  | none => simp only [evaluator_of_untargeted targeted]
  | some tree =>
    cases hread : ofJson tree with
    | error error => simp only [evaluator_of_unreadable targeted hread]
    | ok targeting =>
      rw [FlagDefinition.attributesNamed, targeted] at agree
      simp only [evaluator_of_readable targeted hread]
      refine select_congr (named_eq_subjects hread ▸ agree) fun rollout => key ?_
      by_contra none
      rw [fractional_of_not_hasRollout hread fun h => none ⟨tree, targeted, h⟩] at rollout
      cases rollout

/-- The errors of rules that could be read are those of their rollout. -/
theorem error_of_select {flagKey : String} {context : EvaluationContext} {error : TargetingError}
    (failed : targeting.select flagKey context = .error error) :
    error = .invalidContext "fractional rollout requires a targeting key" ∨
      error = .rule "fractional buckets have zero total weight" := by
  unfold select at failed
  split at failed
  · cases failed
  split at failed
  · exact Fractional.error_of_select (map_eq_error.1 failed)
  · cases failed

/-- Targeting reads only what the rules name. Contexts that agree on the attributes named by the
conditions and on the targeting key are not told apart; the targeting key does not matter if no
condition names it and there is no rollout; and the attribute that is called like the targeting key
never matters. Whether the targeting tree can be read, and what is wrong with it, does not depend on
the context: a malformed part spoils it even for contexts in which a rule before it applies. -/
theorem evaluator_reads_what_is_named (flag : FlagDefinition) :
    (∀ a b : EvaluationContext,
      (∀ name ∈ flag.attributesNamed, a.attribute? name = b.attribute? name) →
        a.targetingKey = b.targetingKey → evaluator flag a = evaluator flag b) ∧
    (Condition.targetingKeyName ∉ flag.attributesNamed → ¬ flag.HasRollout →
      ∀ a b : EvaluationContext,
        (∀ name ∈ flag.attributesNamed, a.attribute? name = b.attribute? name) →
          evaluator flag a = evaluator flag b) ∧
    (∀ a b : EvaluationContext,
      (∀ name, name ≠ Condition.targetingKeyName → a.attribute? name = b.attribute? name) →
        a.targetingKey = b.targetingKey → evaluator flag a = evaluator flag b) ∧
    ∀ tree, flag.targeting = some tree →
      (Malformed tree → ∃ error, ofJson tree = .error error) ∧
      (∀ error, ofJson tree = .error error →
        ∀ context, evaluator flag context = .error (.rule error.message)) ∧
      ∀ targeting, ofJson tree = .ok targeting →
        ∀ context error, evaluator flag context = .error error →
          error = .invalidContext "fractional rollout requires a targeting key" ∨
            error = .rule "fractional buckets have zero total weight" := by
  refine ⟨fun a b same key => ?_, fun unnamed none a b same => ?_, fun a b same key => ?_,
    fun tree targeted => ⟨fun malformed => ?_, fun error hread => ?_, fun targeting hread => ?_⟩⟩
  · exact evaluator_congr ⟨fun name hname _ => same name hname, fun _ => key⟩ fun _ => key
  · exact evaluator_congr ⟨fun name hname _ => same name hname, fun named => absurd named unnamed⟩
      fun rollout => absurd rollout none
  · exact evaluator_congr ⟨fun name _ hname => same name hname, fun _ => key⟩ fun _ => key
  · cases hread : ofJson tree with
    | ok targeting => exact absurd hread (refuses_of_malformed malformed targeting)
    | error error => exact ⟨error, rfl⟩
  · exact evaluator_of_unreadable targeted hread
  · intro context error failed
    rw [evaluator_of_readable targeted hread] at failed
    exact error_of_select failed

/-- A flag with one condition, and the same flag with a malformed rule behind one that always
applies. -/
theorem evaluator_reads_what_is_named_plan :
    let rule (conditions : List Json) : Json :=
      .object [("conditions", .array conditions), ("variant", .string "on")]
    let plan : Json := .object [("attribute", .string "plan"), ("operator", .string "equals"),
      ("value", .string "pro")]
    let flag (rules : List Json) : FlagDefinition :=
      ⟨"checkout", .enabled, ∅, "off", some (.object [("rules", .array rules)]), ∅⟩
    let bert : EvaluationContext := EvaluationContext.withAttribute {} "plan" (.string "pro")
    let anna : EvaluationContext :=
      (bert.withTargetingKey "anna").withAttribute "targetingKey" .null
    evaluator (flag [rule [plan]]) bert = .ok (some "on") ∧
      evaluator (flag [rule [plan]]) anna = evaluator (flag [rule [plan]]) bert ∧
      ∃ message, ∀ context,
        evaluator (flag [rule [], .null]) context = .error (.rule message) := by
  intro rule plan flag bert anna
  obtain ⟨-, keyless, -⟩ := evaluator_reads_what_is_named (flag [rule [plan]])
  obtain ⟨-, -, -, spoilt⟩ := evaluator_reads_what_is_named (flag [rule [], .null])
  have names : (flag [rule [plan]]).attributesNamed = ["plan"] := by decide +kernel
  refine ⟨by decide +kernel, ?_, ?_⟩
  · refine keyless (by rw [names]; decide) ?_ anna bert ?_
    · rintro ⟨tree, targeted, rollout, there, -⟩
      cases targeted
      cases there
    · rw [names, List.forall_mem_singleton]
      rfl
  · obtain ⟨malformed, unreadable, -⟩ := spoilt _ rfl
    have last : Json.null ∈ ruleTrees (.object [("rules", .array [rule [], .null])]) :=
      List.mem_cons_of_mem _ List.mem_cons_self
    obtain ⟨error, hread⟩ := malformed (.rule last nofun)
    exact ⟨error.message, unreadable error hread⟩

end TargetingRules

end FeatureFlags
