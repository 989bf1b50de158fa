import ImportPlan.Proofs.Rules.FirstOfEach
import ImportPlan.Path
import ImportPlan.Rules

namespace ImportPlan

/-!
# The rule table

What a document asks for, said without repetition: each rule is a condition on the declarations and
the features, with the registrations that it makes, and no registration is made by two rules.

* `Registration.name`, `Registration.id`, `Registration.all` — what a registration asks to bind, and
  all that there are.
* `Document.hasEnum`, `Document.hasStructLike`, `Document.hasService`, `Document.hasMethod`,
  `Document.needsContext` — the conditions on the declarations.
* `Rules.ruleTable` — the rules in their order.
* `Rules.firstOfEach_registrations` — the registrations of a document without the repeated ones are
  the rule table.
* `Rules.registrations_subset` — no document asks for anything that is not listed.
-/

/-! ### Registrations -/

namespace Registration

/-- The local name that a registration asks for. -/
def name : Registration → String
  | .required p => p.name
  | .tentative l => l.name

/-- The id that a registration asks a name for, before redirection. -/
def id : Registration → String
  | .required p => p.path
  | .tentative l => l.name

/-- All registrations that a document can ask for. -/
def all : List Registration := Package.all.map .required ++ Library.all.map .tentative

/-- No id is asked for by two registrations. -/
theorem nodup_map_id_all : (all.map id).Nodup := by decide +kernel

/-- Registrations that ask for one name ask it for one id. -/
theorem id_eq_of_name_eq : ∀ g ∈ all, ∀ g' ∈ all, g.name = g'.name → g.id = g'.id := by
  decide +kernel

/-- Under the names asked for no import needs an alias. -/
theorem shownAlias_eq_empty : ∀ g ∈ all, Path.shownAlias g.name g.id = "" := by
  decide +kernel

end Registration

/-! ### Conditions -/

namespace Document

variable (d : Document)

/-- Whether an enum is declared. -/
def hasEnum : Bool := !d.enums.isEmpty

/-- Whether a struct, a union or an exception is declared. -/
def hasStructLike : Bool := !d.structs.isEmpty || !d.unions.isEmpty || !d.exceptions.isEmpty

/-- Whether a service is declared. -/
def hasService : Bool := !d.services.isEmpty

/-- Whether some service has a function. -/
def hasMethod : Bool := d.services.any fun s => !s.methods.isEmpty

/-- Whether some service extends nothing, its base being absent or empty, or has a function. -/
def needsContext : Bool :=
  d.services.any fun s => s.base == none || s.base == some "" || !s.methods.isEmpty

theorem structLikeCount_eq_zero_iff : d.structLikeCount = 0 ↔ d.hasStructLike = false := by
  simp [structLikeCount, structLikes, hasStructLike, and_assoc]

theorem methodCount_eq_zero_iff : d.methodCount = 0 ↔ d.hasMethod = false := by
  rw [methodCount, List.length_eq_zero_iff, methods, List.flatMap_eq_nil_iff]
  simp [hasMethod]

end Document

/-! ### The table -/

namespace Rules

open Package (fmt context sqlDriver sql thrift unknown)
open Library (strings bytes reflect)

/-- The registrations of a rule whose condition is met, and none otherwise. -/
def onlyIf {α : Type} (condition : Bool) (l : List α) : List α := if condition then l else []

/-- The packages that are required, each once and in order. -/
def packageTable (features : Features) (d : Document) : List Package :=
  onlyIf d.hasEnum [fmt]
    ++ onlyIf (d.hasEnum && features.scanValueForEnum) [sqlDriver, sql]
    ++ onlyIf (d.hasStructLike && !d.hasEnum) [fmt]
    ++ onlyIf (!features.definitionOnly && (d.hasStructLike || d.hasService)) [thrift]
    ++ onlyIf d.needsContext [context]
    ++ onlyIf (d.hasMethod && !d.hasEnum && !d.hasStructLike) [fmt]
    ++ onlyIf (features.keepUnknownFields && (d.hasStructLike || d.hasMethod)) [unknown]

/-- The libraries that are offered, each once and in order. -/
def libraryTable (features : Features) : List Library :=
  onlyIf features.genDeepEqual [strings, bytes]
    ++ onlyIf (!features.genDeepEqual && features.validateSet) [reflect]

/-- The rules of registration in order, each with its condition. -/
def ruleTable (features : Features) (d : Document) : List Registration :=
  (packageTable features d).map .required ++ (libraryTable features).map .tentative

/-! ### Registrations and the table -/

theorem mem_onlyIf {α : Type} {condition : Bool} {l : List α} {a : α} :
    a ∈ onlyIf condition l ↔ condition = true ∧ a ∈ l := by
  cases condition <;> simp [onlyIf]

theorem onlyIf_subset {α : Type} (condition : Bool) {l l' : List α} (h : l ⊆ l') :
    onlyIf condition l ⊆ l' := by
  cases condition with
  | false => exact List.nil_subset l'
  | true => exact h

theorem filter_onlyIf_singleton {α : Type} (p : α → Bool) (condition : Bool) (a : α) :
    (onlyIf condition [a]).filter p = onlyIf (condition && p a) [a] := by
  cases condition with
  | false => rfl
  | true => cases h : p a <;> simp [onlyIf, h]

/-- A service takes contexts if it extends nothing or has a function. -/
theorem forService_eq (s : Service) :
    forService s =
      onlyIf (s.base == none || s.base == some "" || !s.methods.isEmpty) [context]
        ++ onlyIf (!s.methods.isEmpty) [fmt] := by
  have hbase : (!s.hasBase) = (s.base == none || s.base == some "") := by
    rw [Service.hasBase]
    split <;> simp_all
  rw [forService, hbase]
  cases s.methods.isEmpty <;> rfl

/-- The services together ask for contexts first and for formatting second. -/
theorem firstOfEach_forService (services : List Service) :
    firstOfEach id (services.flatMap forService) =
      onlyIf (services.any fun s => s.base == none || s.base == some "" || !s.methods.isEmpty)
          [context]
        ++ onlyIf (services.any fun s => !s.methods.isEmpty) [fmt] := by
  induction services with
  | nil => rfl
  | cons s rest ih =>
    rw [List.flatMap_cons, firstOfEach_append, ih, forService_eq, List.any_cons, List.any_cons]
    -- what is left depends on four conditions only, two of this service and two of the rest
    generalize (s.base == none || s.base == some "") = extendsNothing
    generalize s.methods.isEmpty = isEmpty
    generalize (rest.any fun s => s.base == none || s.base == some "" || !s.methods.isEmpty) = c
    generalize (rest.any fun s => !s.methods.isEmpty) = m
    revert extendsNothing isEmpty c m
    decide +kernel

/-- The packages that the kinds of declarations ask for, before the services are looked into. -/
def declaredPackages (features : Features) (d : Document) : List Package :=
  onlyIf d.hasEnum (fmt :: onlyIf features.scanValueForEnum [sqlDriver, sql])
    ++ onlyIf d.hasStructLike (fmt :: onlyIf (!features.definitionOnly) [thrift])
    ++ onlyIf (d.hasService && !features.definitionOnly) [thrift]

/-- The packages required: those for the kinds of declarations, those for each service, and the
support for unknown fields. -/
theorem requiredPackages_eq (features : Features) (d : Document) :
    requiredPackages features d = declaredPackages features d ++ (d.services.flatMap forService
      ++ onlyIf (features.keepUnknownFields && (d.hasStructLike || d.hasMethod)) [unknown]) := by
  have hruntime : runtime features = onlyIf (!features.definitionOnly) [thrift] := by
    rw [runtime]
    cases features.definitionOnly <;> rfl
  have henums : forEnums features d =
      onlyIf d.hasEnum (fmt :: onlyIf features.scanValueForEnum [sqlDriver, sql]) := by
    rw [forEnums, Document.hasEnum]
    cases d.enums.isEmpty <;> rfl
  have hstructs : forStructLikes features d =
      onlyIf d.hasStructLike (fmt :: onlyIf (!features.definitionOnly) [thrift]) := by
    rw [forStructLikes, hruntime, onlyIf]
    simp only [d.structLikeCount_eq_zero_iff]
    cases d.hasStructLike <;> rfl
  have hservices : forServices features d =
      onlyIf (d.hasService && !features.definitionOnly) [thrift]
        ++ d.services.flatMap forService := by
    rw [forServices, hruntime, Document.hasService]
    cases d.services with
    | nil => rfl
    | cons s rest => cases features.definitionOnly <;> rfl
  have hunknown : forUnknownFields features d =
      onlyIf (features.keepUnknownFields && (d.hasStructLike || d.hasMethod)) [unknown] := by
    simp only [forUnknownFields, Nat.pos_iff_ne_zero, Ne, Nat.add_eq_zero_iff,
      d.structLikeCount_eq_zero_iff, d.methodCount_eq_zero_iff]
    cases d.hasStructLike <;> cases d.hasMethod <;> cases features.keepUnknownFields <;> rfl
  rw [requiredPackages, henums, hstructs, hservices, hunknown, declaredPackages]
  simp only [List.append_assoc]

/-- The packages for the kinds of declarations without repetition. -/
theorem firstOfEach_declaredPackages (features : Features) (d : Document) :
    firstOfEach id (declaredPackages features d) =
      onlyIf d.hasEnum [fmt]
        ++ onlyIf (d.hasEnum && features.scanValueForEnum) [sqlDriver, sql]
        ++ onlyIf (d.hasStructLike && !d.hasEnum) [fmt]
        ++ onlyIf (!features.definitionOnly && (d.hasStructLike || d.hasService)) [thrift] := by
  rw [declaredPackages]
  -- what is left depends on five conditions only
  generalize d.hasEnum = e
  generalize d.hasStructLike = s
  generalize d.hasService = v
  generalize features.scanValueForEnum = scan
  generalize features.definitionOnly = definitionOnly
  revert e s v scan definitionOnly
  decide +kernel

/-- The packages required, without repetition, are those of the table. -/
theorem firstOfEach_requiredPackages (features : Features) (d : Document) :
    firstOfEach id (requiredPackages features d) = packageTable features d := by
  -- of what comes after the declarations, only formatting may have been asked for before
  have hcontext : context ∉ declaredPackages features d := by
    have hne : context ∉ [fmt, sqlDriver, sql, thrift] := by decide
    simp_all [declaredPackages, mem_onlyIf]
  have hunknown : unknown ∉ declaredPackages features d := by
    have hne : unknown ∉ [fmt, sqlDriver, sql, thrift] := by decide
    simp_all [declaredPackages, mem_onlyIf]
  have hfmt : decide (fmt ∉ declaredPackages features d) = (!d.hasEnum && !d.hasStructLike) := by
    have hne : fmt ≠ thrift := by decide
    rw [Bool.eq_iff_iff]
    simp [declaredPackages, mem_onlyIf, hne]
  have hrest : ∀ c m u : Bool,
      firstOfEach id ((onlyIf c [context] ++ onlyIf m [fmt]) ++ onlyIf u [unknown]) =
        onlyIf c [context] ++ onlyIf m [fmt] ++ onlyIf u [unknown] := by
    decide +kernel
  rw [requiredPackages_eq, ← firstOfEach_append_firstOfEach, firstOfEach_forService,
    firstOfEach_append, hrest, firstOfEach_declaredPackages, List.map_id, List.filter_append,
    List.filter_append, filter_onlyIf_singleton, filter_onlyIf_singleton, filter_onlyIf_singleton]
  simp only [id, hcontext, hunknown, hfmt, not_false_eq_true, decide_true, Bool.and_true,
    packageTable, Document.needsContext, Document.hasMethod, List.append_assoc, Bool.and_assoc]

/-- **The registrations of a document, without repetition, are the rule table**, for any numbers of
declarations and services. -/
theorem firstOfEach_registrations (features : Features) (d : Document) :
    firstOfEach id (registrations features d) = ruleTable features d := by
  have hlibraries : tentativeLibraries features = libraryTable features := by
    rw [tentativeLibraries, libraryTable]
    cases features.genDeepEqual <;> cases features.validateSet <;> rfl
  have hpackages : firstOfEach id ((requiredPackages features d).map Registration.required) =
      (packageTable features d).map .required := by
    rw [firstOfEach_map, firstOfEach_congr (g := id) fun p p' => by simp,
      firstOfEach_requiredPackages]
  have hnodup : (((libraryTable features).map Registration.tentative).map id).Nodup := by
    rw [libraryTable]
    cases features.genDeepEqual <;> cases features.validateSet <;> decide
  rw [registrations, firstOfEach_append, hpackages, hlibraries, firstOfEach_of_nodup hnodup,
    ruleTable, List.filter_eq_self.2]
  -- no library is a required package
  intro g hg
  obtain ⟨l, -, rfl⟩ := List.mem_map.1 hg
  simp

theorem mem_ruleTable_iff {features : Features} {d : Document} {g : Registration} :
    g ∈ ruleTable features d ↔ g ∈ registrations features d := by
  have hkeys := mem_map_firstOfEach id (registrations features d) g
  rwa [firstOfEach_registrations, List.map_id, List.map_id] at hkeys

/-- The packages of the table are among those listed. -/
theorem packageTable_subset (features : Features) (d : Document) :
    packageTable features d ⊆ Package.all := by
  simp only [packageTable, List.append_subset]
  and_intros <;> exact onlyIf_subset _ (by decide)

/-- No document asks for anything that is not listed. -/
theorem registrations_subset (features : Features) (d : Document) :
    registrations features d ⊆ Registration.all := by
  intro g hg
  rw [← mem_ruleTable_iff, ruleTable, List.mem_append] at hg
  rcases hg with hrequired | htentative
  · obtain ⟨p, hp, rfl⟩ := List.mem_map.1 hrequired
    have hall : p ∈ Package.all := packageTable_subset features d hp
    exact List.mem_append_left _ (List.mem_map_of_mem hall)
  · obtain ⟨l, -, rfl⟩ := List.mem_map.1 htentative
    cases l <;> decide

/-- No rule repeats the id of another one. -/
theorem nodup_map_id_ruleTable (features : Features) (d : Document) :
    ((ruleTable features d).map Registration.id).Nodup := by
  have hnodup : (ruleTable features d).Nodup := by
    rw [← firstOfEach_registrations, ← List.map_id (firstOfEach id _)]
    exact nodup_map_firstOfEach id _
  -- equal ids would be those of one registration in the list of all
  refine hnodup.map_on ?_
  intro g hg g' hg' heq
  have hall := registrations_subset features d
  exact List.inj_on_of_nodup_map Registration.nodup_map_id_all
    (hall (mem_ruleTable_iff.1 hg)) (hall (mem_ruleTable_iff.1 hg')) heq

end Rules

end ImportPlan
