import Assay.Config.Layer

/-!
# Config — what a settings file sets

`Says t l` holds if the table `t` of a settings file sets exactly the fields of the layer `l`: field
by field, the value under the field's key has the field's type and is the field's value, or both are
missing. Reading a table comes to this and to nothing else (`ofToml_eq_ok_iff`).
-/

namespace Assay.Layer

open Toml (Value Table)

/-! ### Values -/

/-- Whether a value is a path: any text. -/
inductive IsPath : Value → Path → Prop where
  | text (s : String) : IsPath (.text s) (.ofString s)

/-- Whether a value is a number without a sign. -/
inductive IsNatural : Value → Nat → Prop where
  | integer (n : Nat) : IsNatural (.integer n) n

inductive IsBoolean : Value → Bool → Prop where
  | boolean (b : Bool) : IsBoolean (.boolean b) b

inductive IsTexts : Value → List String → Prop where
  | array (ss : List String) : IsTexts (.array (ss.map .text)) ss

/-- Whether a value is a tool: a program alone, or a table with the program and, perhaps,
arguments. -/
inductive IsTool : Value → Tool → Prop where
  | program (s : String) : IsTool (.text s) ⟨.ofString s, []⟩
  | full {origin : Toml.Origin} {t : Table} {v : Value} {program : Path}
      {args : Option (List String)} (hprogram : t.lookup "program" = some v)
      (hpath : IsPath v program) (hargs : Option.Rel IsTexts (t.lookup "args") args) :
      IsTool (.table origin t) ⟨program, args.getD []⟩

/-- The member of a group: under its key if the group is a table, at its place if it is an array. -/
def member (place : Nat) (key : String) : Option Value → Option Value
  | some (.table _ t)    => t.lookup key
  | some (.array items)  => items[place]?
  | some (.tables items) => items[place]?.map (.table .header)
  | _                    => none

/-- Whether a value can be a group. A date is one without members. -/
def IsGroup : Option Value → Prop
  | none | some (.table ..) | some (.array _) | some (.tables _) | some (.date _) => True
  | _ => False

/-- Whether a table sets exactly the fields of a layer. -/
structure Says (t : Table) (l : Layer) : Prop where
  toolchain : IsGroup (t.lookup "toolchain")
  timeouts : IsGroup (t.lookup "timeouts")
  compiler : Option.Rel IsTool (member 0 "compiler" (t.lookup "toolchain")) l.compiler
  codegen : Option.Rel IsTool (member 1 "codegen" (t.lookup "toolchain")) l.codegen
  linker : Option.Rel IsTool (member 2 "linker" (t.lookup "toolchain")) l.linker
  pic : Option.Rel IsBoolean (member 3 "pic" (t.lookup "toolchain")) l.pic
  stageSecs : Option.Rel IsNatural (member 0 "stage_secs" (t.lookup "timeouts")) l.stageSecs
  runSecs : Option.Rel IsNatural (member 1 "run_secs" (t.lookup "timeouts")) l.runSecs
  jobs : Option.Rel IsNatural (t.lookup "jobs") l.jobs
  scratchDir : Option.Rel IsPath (t.lookup "scratch_dir") l.scratchDir
  reportPath : Option.Rel IsPath (t.lookup "report_path") l.reportPath

/-! ### Each reader -/

/-- Two readers in a row succeed exactly if the first does and the second does on its value. -/
theorem bind_eq_ok_iff {ε α β : Type} {x : Except ε α} {f : α → Except ε β} {b : β} :
    x >>= f = .ok b ↔ ∃ a, x = .ok a ∧ f a = .ok b := by
  cases x with
  | error why => exact iff_of_false nofun nofun
  | ok a =>
    constructor
    · exact fun h => ⟨a, rfl, h⟩
    · rintro ⟨a', ha, h⟩
      rwa [← Except.ok.inj ha] at h

theorem pure_eq_ok_iff {ε α : Type} {a b : α} : (pure a : Except ε α) = .ok b ↔ a = b :=
  ⟨Except.ok.inj, congrArg _⟩

/-- Only a text is read as a text, and as itself. -/
theorem text_eq_ok_iff {key : String} {v : Value} {s : String} :
    text key v = .ok s ↔ v = .text s := by
  cases v with
  | text s' => exact ⟨fun h => congrArg _ (Except.ok.inj h), fun h => by rw [h]; rfl⟩
  | _ => exact iff_of_false nofun nofun

/-- Any text is read as a path, and nothing else is. -/
theorem path_eq_ok_iff {key : String} {v : Value} {p : Path} :
    path key v = .ok p ↔ IsPath v p := by
  constructor
  · intro h
    cases v with
    | text s => rw [← Except.ok.inj h]; exact .text s
    | _ => cases h
  · rintro ⟨s⟩
    rfl

/-- Only an integer of at least zero is read as a number. -/
theorem natural_eq_ok_iff {key : String} {v : Value} {n : Nat} :
    natural key v = .ok n ↔ IsNatural v n := by
  constructor
  · intro h
    unfold natural at h
    split at h
    next n' => rw [← Except.ok.inj h]; exact .integer n'
    next => cases h
  · rintro ⟨_⟩
    rfl

/-- Only a truth value is read as one. -/
theorem boolean_eq_ok_iff {key : String} {v : Value} {b : Bool} :
    boolean key v = .ok b ↔ IsBoolean v b := by
  constructor
  · intro h
    unfold boolean at h
    split at h
    next b' => rw [← Except.ok.inj h]; exact .boolean b'
    next => cases h
  · rintro ⟨_⟩
    rfl

/-- An array is read item by item if all of them are texts. -/
theorem mapM_text_eq_ok_iff {key : String} {vs : List Value} {ss : List String} :
    vs.mapM (text key) = .ok ss ↔ vs = ss.map .text := by
  induction vs generalizing ss with
  | nil =>
    simp only [List.mapM_nil, pure_eq_ok_iff, List.nil_eq, List.map_eq_nil_iff]
  | cons v vs ih =>
    simp only [List.mapM_cons, bind_eq_ok_iff, text_eq_ok_iff, ih]
    constructor
    · rintro ⟨s, rfl, ss', rfl, h⟩
      rw [← Except.ok.inj h]
      rfl
    · intro h
      obtain ⟨s, ss', rfl, hs, hss⟩ := List.map_eq_cons_iff.1 h.symm
      exact ⟨s, hs.symm, ss', hss.symm, rfl⟩

/-- Only an array of texts is read as texts. -/
theorem texts_eq_ok_iff {key : String} {v : Value} {ss : List String} :
    texts key v = .ok ss ↔ IsTexts v ss := by
  constructor
  · intro h
    unfold texts at h
    split at h
    next items => rw [mapM_text_eq_ok_iff.1 h]; exact .array ss
    next => cases h
  · rintro ⟨_⟩
    exact mapM_text_eq_ok_iff.2 rfl

/-- What may be missing is missing on both sides, or read. -/
theorem optional_eq_ok_iff {α : Type} {read : Value → Except Toml.Fault α} {R : Value → α → Prop}
    (hread : ∀ v a, read v = .ok a ↔ R v a) {v : Option Value} {a : Option α} :
    optional read v = .ok a ↔ Option.Rel R v a := by
  cases v with
  | none =>
    constructor
    · intro h
      rw [← Except.ok.inj h]
      exact .none
    · rintro ⟨⟩
      rfl
  | some v =>
    rw [optional, map_eq_pure_bind, bind_eq_ok_iff]
    constructor
    · rintro ⟨a', ha, h⟩
      rw [← pure_eq_ok_iff.1 h]
      exact .some ((hread v a').1 ha)
    · rintro ⟨h⟩
      exact ⟨_, (hread v _).2 h, rfl⟩

/-- A tool is a text, which names its program, or a table with its program and perhaps its
arguments. -/
theorem tool_eq_ok_iff {key : String} {v : Value} {t : Tool} :
    tool key v = .ok t ↔ IsTool v t := by
  constructor
  · intro h
    unfold tool at h
    split at h
    next s => rw [← Except.ok.inj h]; exact .program s
    next origin entries =>
      split at h
      next => cases h
      next v hv =>
        obtain ⟨args, hargs, h⟩ := bind_eq_ok_iff.1 h
        obtain ⟨program, hprogram, h⟩ := bind_eq_ok_iff.1 h
        rw [← pure_eq_ok_iff.1 h]
        refine .full hv (path_eq_ok_iff.1 hprogram) ?_
        exact (optional_eq_ok_iff fun _ _ => texts_eq_ok_iff).1 hargs
    next => cases h
  · rintro (s | ⟨hprogram, hpath, hargs⟩)
    · rfl
    · simp only [tool, hprogram, bind_eq_ok_iff]
      refine ⟨_, (optional_eq_ok_iff fun _ _ => texts_eq_ok_iff).2 hargs, ?_⟩
      exact ⟨_, path_eq_ok_iff.2 hpath, rfl⟩

/-- The members of a group are those at their keys or places. -/
theorem group_eq_ok_iff {key : String} {names : List String} {v : Option Value}
    {members : List (Option Value)} :
    group key names v = .ok members ↔
      IsGroup v ∧ members = names.zipIdx.map fun n => member n.2 n.1 v := by
  have hkeys : ∀ f : String → Option Value,
      names.map f = names.zipIdx.map fun n => f n.1 := by
    intro f
    have hnames : names.zipIdx.map Prod.fst = names := List.zipIdx_map_fst _ _
    exact (congrArg (List.map f) hnames.symm).trans List.map_map
  rcases v with _ | v
  · rw [group, hkeys, Except.ok.injEq, IsGroup, true_and, eq_comm]
    rfl
  · cases v with
    | table origin t =>
      rw [group, hkeys, Except.ok.injEq, IsGroup, true_and, eq_comm]
      rfl
    | date digits =>
      rw [group, hkeys, Except.ok.injEq, IsGroup, true_and, eq_comm]
      rfl
    | array items =>
      rw [group, Except.ok.injEq, IsGroup, true_and, eq_comm]
      rfl
    | tables items =>
      rw [group, Except.ok.injEq, IsGroup, true_and, eq_comm]
      rfl
    | _ => exact iff_of_false nofun fun h => h.1

/-! ### The whole table -/

/-- Reading a table finds the layer that it says, and fails if it says none. -/
theorem ofToml_eq_ok_iff {t : Table} {l : Layer} : ofToml t = .ok l ↔ Says t l := by
  have htool : ∀ {key v a}, optional (tool key) v = .ok a ↔ Option.Rel IsTool v a :=
    optional_eq_ok_iff fun _ _ => tool_eq_ok_iff
  have hnatural : ∀ {key v a}, optional (natural key) v = .ok a ↔ Option.Rel IsNatural v a :=
    optional_eq_ok_iff fun _ _ => natural_eq_ok_iff
  have hboolean : ∀ {key v a}, optional (boolean key) v = .ok a ↔ Option.Rel IsBoolean v a :=
    optional_eq_ok_iff fun _ _ => boolean_eq_ok_iff
  have hpath : ∀ {key v a}, optional (path key) v = .ok a ↔ Option.Rel IsPath v a :=
    optional_eq_ok_iff fun _ _ => path_eq_ok_iff
  unfold ofToml
  simp only [bind_eq_ok_iff, group_eq_ok_iff, htool, hnatural, hboolean, hpath, pure_eq_ok_iff]
  constructor
  · rintro ⟨_, ⟨htools, rfl⟩, _, ⟨hlimits, rfl⟩, compiler, hcompiler, codegen, hcodegen, linker,
      hlinker, pic, hpic, stageSecs, hstage, runSecs, hrun, jobs, hjobs, scratch, hscratch, report,
      hreport, rfl⟩
    exact ⟨htools, hlimits, hcompiler, hcodegen, hlinker, hpic, hstage, hrun, hjobs, hscratch,
      hreport⟩
  · rintro ⟨htools, hlimits, hcompiler, hcodegen, hlinker, hpic, hstage, hrun, hjobs, hscratch,
      hreport⟩
    exact ⟨_, ⟨htools, rfl⟩, _, ⟨hlimits, rfl⟩, _, hcompiler, _, hcodegen, _, hlinker, _, hpic, _,
      hstage, _, hrun, _, hjobs, _, hscratch, _, hreport, rfl⟩

end Assay.Layer
