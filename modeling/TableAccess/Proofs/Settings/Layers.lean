import TableAccess.Program

/-! Where the settings of a run come from. The flags of the command line, the environment, the
settings file of the directory and that of the user are layers, each of which sets some of the
settings; the first of them that sets one should decide, and the usual settings where none does.
The environment and the flags change single settings. A file, though, is read as settings that are
complete, with the usual ones for whatever it does not mention, and the file of the directory
replaces that of the user with all of them; so what only the user has set is lost as soon as there
is a file in the directory. -/
namespace TableAccess
open TableAccess.Document TableAccess.Text

namespace Settings

/-- A value that may be missing, read where it is there. -/
def given? {α β : Type} (read : α → Option β) : Option α → Option (Option β)
  | none => some none
  | some value => (read value).map some

/-- What one layer sets. -/
structure Layer where
  dialect : Option Sql.Dialect
  maxDepth : Option Nat
  source : Option TextSource
deriving DecidableEq

namespace Layer

/-- Nothing is set. -/
def empty : Layer := ⟨none, none, none⟩

/-- What a settings file sets. -/
def ofFields? (fields : Setting.Fields) : Option Layer := do
  let found := fun name => (fields.lookup name).getD (Setting.table .path [])
  let resolver ← section? ["dialect", "max_depth", "source"] (found "resolver")
  let runtime ← section? ["workers"] (found "runtime")
  match resolver, runtime with
  | [dialect, maxDepth, source], [workers] =>
    let dialect ← given? (choice? Sql.Dialect.ofName?) dialect
    let maxDepth ← given? number? maxDepth
    let source ← given? (choice? TextSource.ofName?) source
    let _ ← given? number? workers
    return ⟨dialect, maxDepth, source⟩
  | _, _ => none

/-- What the variables of an environment set. -/
def ofEnvironment? (environment : String → Option String) : Option Layer := do
  let dialect ← given? (fun text => (Sql.Dialect.ofInput text).toOption) (environment dialectVariable)
  let maxDepth ← given? numberOfInput? (environment depthVariable)
  let _ ← given? numberOfInput? (environment workersVariable)
  return ⟨dialect, maxDepth, none⟩

end Layer

/-- What decides how a run reads statements. -/
structure Choices where
  dialect : Sql.Dialect
  maxDepth : Nat
  source : TextSource
deriving DecidableEq

/-- The choices of the first layer that sets each, or else the usual ones. -/
def Choices.ofLayers (layers : List Layer) : Choices where
  dialect := (layers.findSome? Layer.dialect).getD usual.dialect
  maxDepth := (layers.findSome? Layer.maxDepth).getD usual.maxDepth
  source := (layers.findSome? Layer.source).getD usual.source

/-- The choices among some settings. -/
def choices (s : Settings) : Choices := ⟨s.dialect, s.maxDepth, s.source⟩

/-- The choices among settings, if there are any. -/
def chosen (s : Except Error Settings) : Option Choices := s.toOption.map choices

/-- Changed settings, unless the change met something wrong. -/
def unlessFaulty : Settings × Option Error → Except Error Settings
  | (s, none) => .ok s
  | (_, some e) => .error e

end Settings

open Settings

/-- The choices of a plan. -/
def Plan.choices (p : Plan) : Choices := ⟨p.dialect, p.maxDepth, p.source⟩

/-- What the flags of a command line set. -/
def Options.layer (o : Options) : Layer :=
  ⟨o.dialect, o.maxDepth, if o.plainText then some .plain else none⟩

/-- What a settings file sets, if it is there. -/
def SettingsFile.layer? : SettingsFile → Option (Option Layer)
  | .absent => some none
  | .unreadable => none
  | .text content => ((Toml.read? content).bind Layer.ofFields?).map some

/-- The layers below the command line. -/
structure Layers where
  environment : Layer
  directory : Option Layer
  user : Option Layer
deriving DecidableEq

/-- The layers in some surroundings, if all of them are valid. -/
def Surroundings.layers? (s : Surroundings) : Option Layers := do
  let user ← s.userSettings.layer?
  let directory ← s.localSettings.layer?
  let environment ← Layer.ofEnvironment? s.environment
  return ⟨environment, directory, user⟩

namespace Layers

/-- All layers, the one that comes first at the front. A file that is not there sets nothing. -/
def under (l : Layers) (o : Options) : List Layer :=
  [o.layer, l.environment, l.directory.getD .empty, l.user.getD .empty]

/-- The layers that a run looks at. -/
def seen (l : Layers) (o : Options) : List Layer :=
  o.layer :: l.environment :: (l.directory <|> l.user).toList

/-- Whether a setting is the same without the file of the user where there is one of the directory:
another layer sets it, or that file does not set it to something unusual. -/
def Keeps {α : Type} (setting : Layer → Option α) (usual : α) (l : Layers) (o : Options) : Prop :=
  ∀ directory ∈ l.directory, ∀ user ∈ l.user, ∀ value ∈ setting user,
    [o.layer, l.environment, directory].findSome? setting = none → value = usual

end Layers

namespace Settings
variable {α β : Type}

theorem orUsual_eq (usual : β) (read : Setting → Option β) (v : Option Setting) :
    orUsual usual read v = (given? read v).map fun found => found.getD usual := by
  cases v with
  | none => rfl
  | some v => simp [orUsual, given?, Function.comp_def]

theorem given?_map {γ : Type} (read : α → Option β) (f : β → γ) (v : Option α) :
    given? (fun v => (read v).map f) v = (given? read v).map (Option.map f) := by
  cases v with
  | none => rfl
  | some v => simp [given?, Function.comp_def]

/-- A file stands for its layer over the usual settings. -/
theorem choices_ofFields? (fields : Setting.Fields) : (ofFields? fields).map choices =
    (Layer.ofFields? fields).map fun file => Choices.ofLayers [file] := by
  unfold ofFields? Layer.ofFields?
  dsimp only
  cases section? ["dialect", "max_depth", "source"]
      ((fields.lookup "resolver").getD (Setting.table .path [])) with
  | none => rfl
  | some resolver =>
    cases section? ["workers"] ((fields.lookup "runtime").getD (Setting.table .path [])) with
    | none => rfl
    | some runtime =>
      simp only [Option.bind_eq_bind, Option.bind_some]
      -- Any other number of fields gives no settings in either way of reading.
      rcases resolver with _ | ⟨dialect, _ | ⟨maxDepth, _ | ⟨source, _ | _⟩⟩⟩ <;> try rfl
      rcases runtime with _ | ⟨workers, _ | _⟩ <;> try rfl
      simp only [orUsual_eq, given?_map]
      cases given? (choice? Sql.Dialect.ofName?) dialect with
      | none => rfl
      | some dialect =>
        cases given? number? maxDepth with
        | none => rfl
        | some maxDepth =>
          cases given? (choice? TextSource.ofName?) source with
          | none => rfl
          | some source =>
            cases given? number? workers with
            | none => rfl
            | some workers =>
              cases dialect <;> cases maxDepth <;> cases source <;> rfl

theorem chosen_ofToml (text : String) : chosen (ofToml text) =
    ((Toml.read? text).bind Layer.ofFields?).map fun file => Choices.ofLayers [file] := by
  unfold ofToml
  cases Toml.read? text with
  | none => rfl
  | some fields =>
    rw [Option.bind_some, Option.bind_some, ← choices_ofFields?]
    cases ofFields? fields <;> rfl

/-- Some choices with what a layer sets in place of them. -/
def Layer.over (l : Layer) (c : Choices) : Choices :=
  ⟨l.dialect.getD c.dialect, l.maxDepth.getD c.maxDepth, l.source.getD c.source⟩

private theorem getD_findSome?_cons {setting : Layer → Option α} {usual : α} {rest : List Layer} :
    ((l :: rest).findSome? setting).getD usual =
      (setting l).getD ((rest.findSome? setting).getD usual) := by
  rw [List.findSome?_cons]
  cases setting l <;> rfl

theorem Choices.ofLayers_cons (l : Layer) (rest : List Layer) :
    ofLayers (l :: rest) = l.over (ofLayers rest) := by
  simp only [ofLayers, getD_findSome?_cons, Layer.over]

theorem Choices.ofLayers_nil : ofLayers [] = usual.choices := rfl

theorem chosen_bind {x : Except Error Settings} {f : Settings → Except Error Settings}
    {g : Choices → Option Choices} (onChoices : ∀ s, chosen (f s) = g s.choices) :
    chosen (x >>= f) = (chosen x).bind g := by
  cases x with
  | error e => rfl
  | ok s => exact onChoices s

section Variables
variable {environment : String → Option String} {key : String}
  {change : String → Settings → Except Error Settings} {rest : List Override} {s : Settings}
  {read : String → Option α} {set : α → Settings → Settings}

/-- A variable changes settings by its value, or not at all if it is missing. -/
private theorem applyVariables_of_some
    (changes : ∀ value s, (change value s).toOption = (read value).map fun v => set v s)
    {found : Option α} (valid : given? read (environment key) = some found) :
    applyVariables environment ((key, change) :: rest) s =
      applyVariables environment rest (found.elim s fun v => set v s) := by
  rw [applyVariables]
  cases present : environment key with
  | none =>
    rw [present] at valid
    obtain rfl := Option.some.inj valid
    rfl
  | some value =>
    rw [present] at valid
    obtain ⟨v, read_, rfl⟩ := Option.map_eq_some_iff.mp valid
    have changed := changes value s
    rw [read_] at changed
    cases made : change value s with
    | error e => simp [made, Except.toOption] at changed
    | ok s' =>
      rw [made] at changed
      obtain rfl := Option.some.inj changed
      simp only [made, Option.elim_some]

/-- The first variable that is wrong ends the change. -/
private theorem applyVariables_of_none
    (changes : ∀ value s, (change value s).toOption = (read value).map fun v => set v s)
    (invalid : given? read (environment key) = none) :
    ∃ e, (applyVariables environment ((key, change) :: rest) s).2 = some e := by
  rw [applyVariables]
  cases present : environment key with
  | none =>
    rw [present] at invalid
    cases invalid
  | some value =>
    rw [present] at invalid
    have changed := changes value s
    rw [Option.map_eq_none_iff.mp invalid] at changed
    cases made : change value s with
    | error e => exact ⟨e, by simp only [made]⟩
    | ok s' => simp [made, Except.toOption] at changed

private theorem toOption_variableNumber (key value : String) :
    (variableNumber key value).toOption = numberOfInput? value := by
  unfold variableNumber
  cases numberOfInput? value <;> rfl

private theorem toOption_setting {x : Except Error α} (set : α → Settings) :
    (do return set (← x) : Except Error Settings).toOption = x.toOption.map set := by
  cases x <;> rfl

private theorem chosen_of_fault {changed : Settings × Option Error}
    (fault : ∃ e, changed.2 = some e) : chosen (unlessFaulty changed) = none := by
  obtain ⟨s, _⟩ := changed
  obtain ⟨e, rfl⟩ := fault
  rfl

/-- What the variables of an environment set comes over what holds without them. -/
theorem chosen_applyEnvironment (environment : String → Option String) (s : Settings) :
    chosen (unlessFaulty (s.applyEnvironment environment)) =
      (Layer.ofEnvironment? environment).map fun l => l.over s.choices := by
  have setsDialect := fun (value : String) (s : Settings) =>
    toOption_setting (x := Sql.Dialect.ofInput value) fun d => { s with dialect := d }
  have setsDepth := fun (value : String) (s : Settings) =>
    (toOption_setting (x := variableNumber depthVariable value)
      fun n => { s with maxDepth := n }).trans (by rw [toOption_variableNumber])
  have setsWorkers := fun (value : String) (s : Settings) =>
    (toOption_setting (x := variableNumber workersVariable value)
      fun n => { s with workers := if n == 0 then none else some n }).trans
        (by rw [toOption_variableNumber])
  unfold applyEnvironment overrides Layer.ofEnvironment?
  cases dialect : given? (fun text => (Sql.Dialect.ofInput text).toOption)
      (environment dialectVariable) with
  | none => exact chosen_of_fault (applyVariables_of_none setsDialect dialect)
  | some dialect' =>
    rw [applyVariables_of_some setsDialect dialect]
    cases depth : given? numberOfInput? (environment depthVariable) with
    | none => exact chosen_of_fault (applyVariables_of_none setsDepth depth)
    | some depth' =>
      rw [applyVariables_of_some setsDepth depth]
      cases workers : given? numberOfInput? (environment workersVariable) with
      | none => exact chosen_of_fault (applyVariables_of_none setsWorkers workers)
      | some workers' =>
        rw [applyVariables_of_some setsWorkers workers]
        cases dialect' <;> cases depth' <;> cases workers' <;> rfl

end Variables

end Settings

/-- The choices that hold with a settings file in place of others: those of its layer over the
usual ones, whatever held before, or the same as before if it is not there. -/
def SettingsFile.replace? (file : SettingsFile) (c : Choices) : Option Choices :=
  file.layer?.map fun l => l.elim c fun l => Choices.ofLayers [l]

theorem SettingsFile.chosen_load (file : SettingsFile) (s : Settings) :
    chosen (file.load s) = file.replace? s.choices := by
  cases file with
  | absent => rfl
  | unreadable => rfl
  | text content =>
    refine (chosen_ofToml content).trans ?_
    simp [replace?, layer?, Function.comp_def]

/-- The settings of a run exist where all its layers are valid, and only there. They come from the
environment and from one file. -/
theorem Surroundings.chosen_settings (s : Surroundings) :
    chosen s.settings = s.layers?.map fun l =>
      Choices.ofLayers (l.environment :: (l.directory <|> l.user).toList) := by
  have directory : ∀ settings : Settings, chosen (s.localSettings.load settings >>= fun settings =>
      unlessFaulty (settings.applyEnvironment s.environment)) =
        (s.localSettings.replace? settings.choices).bind fun c =>
          (Layer.ofEnvironment? s.environment).map fun l => l.over c := by
    intro settings
    rw [← s.localSettings.chosen_load]
    exact chosen_bind (chosen_applyEnvironment s.environment)
  refine (chosen_bind (g := fun c => (s.localSettings.replace? c).bind fun c =>
    (Layer.ofEnvironment? s.environment).map fun l => l.over c) directory).trans ?_
  rw [s.userSettings.chosen_load, SettingsFile.replace?, layers?]
  cases s.userSettings.layer? with
  | none => rfl
  | some user =>
    simp only [SettingsFile.replace?]
    cases s.localSettings.layer? with
    | none => rfl
    | some directory =>
      cases Layer.ofEnvironment? s.environment with
      | none => rfl
      | some environment =>
        cases directory <;> cases user <;> simp [Choices.ofLayers_cons, Choices.ofLayers_nil]

/-- The choices of a plan are those of the settings, with the flags over them. -/
theorem Plan.choices_of (o : Options) (s : Settings) :
    (Plan.of o s).choices = o.layer.over s.choices := by
  unfold Plan.of Plan.choices Options.layer Layer.over
  cases o.plainText <;> rfl

namespace Layers
variable {α : Type} {setting : Layer → Option α}

/-- Whether a layer at the end may be left out. -/
theorem first_append_iff (usual : α) (above : List Layer) (l : Layer) :
    (above.findSome? setting).getD usual = ((above ++ [l]).findSome? setting).getD usual ↔
      ∀ value ∈ setting l, above.findSome? setting = none → value = usual := by
  rw [List.findSome?_append]
  cases above.findSome? setting with
  | some value => simp
  | none => cases found : setting l <;> simp [found, eq_comm]

/-- Only what the user alone sets, and sets to something unusual, gets lost. -/
theorem first_seen_iff (unset : setting .empty = none) (usual : α) (l : Layers) (o : Options) :
    ((l.seen o).findSome? setting).getD usual = ((l.under o).findSome? setting).getD usual ↔
      l.Keeps setting usual o := by
  obtain ⟨environment, directory, user⟩ := l
  cases directory with
  | none =>
    -- Without a file of the directory the file of the user is seen.
    refine iff_of_true ?_ (by simp [Keeps])
    cases user <;> simp [seen, under, List.findSome?_cons, unset]
  | some directory =>
    cases user with
    | none =>
      refine iff_of_true ?_ (by simp [Keeps])
      exact (first_append_iff usual [o.layer, environment, directory] .empty).mpr (by simp [unset])
    | some user =>
      refine (first_append_iff usual [o.layer, environment, directory] user).trans ?_
      simp [Keeps]

end Layers

/-- **A setting is that of the first layer that sets it as long as nothing is lost.** Whatever is
in the settings files, the environment and the flags, as long as each is valid or not there, a run
has settings. Each is that of the first layer that sets it, unless there is a file of the directory
beside that of the user, and only the latter sets it, to something unusual. -/
theorem Layers.layered_iff {s : Surroundings} {l : Layers} (valid : s.layers? = some l)
    (o : Options) : ∃ settings, s.settings = .ok settings ∧
      ((Plan.of o settings).dialect = (Choices.ofLayers (l.under o)).dialect ↔
        l.Keeps Layer.dialect usual.dialect o) ∧
      ((Plan.of o settings).maxDepth = (Choices.ofLayers (l.under o)).maxDepth ↔
        l.Keeps Layer.maxDepth usual.maxDepth o) ∧
      ((Plan.of o settings).source = (Choices.ofLayers (l.under o)).source ↔
        l.Keeps Layer.source usual.source o) := by
  have chosen := s.chosen_settings
  rw [valid, Option.map_some] at chosen
  obtain ⟨settings, found, chosen⟩ := Option.map_eq_some_iff.mp chosen
  have plan : (Plan.of o settings).choices = Choices.ofLayers (l.seen o) := by
    rw [Plan.choices_of, chosen, ← Choices.ofLayers_cons]
    rfl
  refine ⟨settings, ?_, ?_, ?_, ?_⟩
  · cases read : s.settings with
    | error e => simp [read, Except.toOption] at found
    | ok read => simpa [read, Except.toOption] using found
  · have dialect : (Plan.of o settings).dialect = _ := congrArg Choices.dialect plan
    rw [dialect]
    exact l.first_seen_iff rfl usual.dialect o
  · have maxDepth : (Plan.of o settings).maxDepth = _ := congrArg Choices.maxDepth plan
    rw [maxDepth]
    exact l.first_seen_iff rfl usual.maxDepth o
  · have source : (Plan.of o settings).source = _ := congrArg Choices.source plan
    rw [source]
    exact l.first_seen_iff rfl usual.source o

/-- What both files set is as the file of the directory says, and a variable comes before it. -/
theorem Layers.layered_iff_both_files :
    let s : Surroundings := ⟨.text "[resolver]\nmax_depth = 5\n",
      .text "[resolver]\nmax_depth = 3\ndialect = \"mysql\"\n",
      fun name => if name = dialectVariable then some "SQLite" else none, fun _ => none⟩
    let o : Options := ⟨[], [], none, none, none, true, .json, false, false⟩
    ∃ settings, s.settings = .ok settings ∧
      (Plan.of o settings).choices = ⟨.sqlite, 3, .plain⟩ := by
  intro s o
  let l : Layers := ⟨⟨some .sqlite, none, none⟩, some ⟨some .mysql, some 3, none⟩,
    some ⟨none, some 5, none⟩⟩
  obtain ⟨settings, found, dialect, maxDepth, source⟩ :=
    Layers.layered_iff (s := s) (l := l) (by decide +kernel) o
  have keeps : l.Keeps Layer.dialect usual.dialect o ∧ l.Keeps Layer.maxDepth usual.maxDepth o ∧
      l.Keeps Layer.source usual.source o := by
    simp [Layers.Keeps, l, o, Options.layer]
  have choices : (Plan.of o settings).choices = Choices.ofLayers (l.under o) := by
    rw [Plan.choices, dialect.mpr keeps.1, maxDepth.mpr keeps.2.1, source.mpr keeps.2.2]
  exact ⟨settings, found, choices.trans (by decide)⟩

/-- The depth that the user alone sets gets lost beside any file of the directory. -/
theorem Layers.depth_of_user_lost :
    let s : Surroundings := ⟨.text "[resolver]\nmax_depth = 0\n",
      .text "[resolver]\ndialect = \"mysql\"\n", fun _ => none, fun _ => none⟩
    let l : Layers := ⟨.empty, some ⟨some .mysql, none, none⟩, some ⟨none, some 0, none⟩⟩
    let o : Options := ⟨[], [], none, none, none, false, .json, false, false⟩
    s.layers? = some l ∧ (Choices.ofLayers (l.under o)).maxDepth = 0 ∧
      s.settings.toOption.map (fun settings => (Plan.of o settings).maxDepth) = some 32 := by
  decide +kernel

end TableAccess
