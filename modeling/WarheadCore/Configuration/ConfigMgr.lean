import Mathlib.Data.List.DropRight
import Mathlib.Data.List.Infix
import WarheadCore.Foundation.Runs
import WarheadCore.Foundation.Tables
import WarheadCore.Utilities.HexStrings

/-! The options of a server: how they are read from the configuration files, read again on a reload,
and looked up.
-/

namespace WarheadCore.Configuration

open Foundation
open WarheadCore.Utilities (isSpace)

abbrev Text := List Char

abbrev Options : Type := Table Text Text

-- Files

/-- What is behind the name of a file. A file is broken when one of its lines cannot be read. -/
inductive File where
  | missing
  | broken
  | lines (lines : List Text)

def trim (text : Text) : Text := (text.dropWhile isSpace).rdropWhile isSpace

/-- The option and the value of a line; no option is in a comment or where there is no `=`. -/
def parseLine (line : Text) : Option (Text × Text) :=
  let line := trim line
  if line.head? = none ∨ line.head? = some '#' ∨ line.head? = some '[' then none
  else
    let line := line.takeWhile (· ≠ '#')
    if '=' ∈ line then
      some (trim (line.takeWhile (· ≠ '=')),
        (trim (line.dropWhile (· ≠ '=')).tail).filter (· ≠ '"'))
    else none

/-- Of several lines with one option the first counts. -/
def addEntry (fileConfigs : List (Text × Text)) (line : Text) : List (Text × Text) :=
  match parseLine line with
  | none => fileConfigs
  | some entry =>
      if fileConfigs.any (fun other => other.1 = entry.1) then fileConfigs
      else fileConfigs ++ [entry]

/-- The entries of a file, where it can be read and has some. -/
def parseFile : File → Option (List (Text × Text))
  | .missing => none
  | .broken => none
  | .lines lines =>
      let fileConfigs := lines.foldl addEntry []
      if fileConfigs.isEmpty then none else some fileConfigs

def isLoggingSystemOptions (optionName : Text) : Bool :=
  decide ("Sink.".toList <:+: optionName) || decide ("Logger.".toList <:+: optionName)

def addKey (isOptional isReload : Bool) (configOptions : Options) (entry : Text × Text) : Options :=
  if isOptional && (configOptions.get? entry.1).isNone && !isLoggingSystemOptions entry.1
      && !isReload then configOptions
  else configOptions.put entry.1 entry.2

structure ConfigMgr where
  configOptions : Options := ∅
  usingDistConfig : Bool := false
  moduleConfigFiles : List Text := []

section Loading

/-- The configured names, and the files as they are at the time of a load. -/
structure Setup where
  filename : Text
  additonalFiles : List Text
  modulesPath : Text

def Setup.distFilename (setup : Setup) : Text := setup.filename ++ ".dist".toList

variable (setup : Setup) (files : Text → File)

/-- Also whether the file was loaded. -/
def loadFile (file : Text) (isOptional isReload : Bool) (configOptions : Options)
    : Bool × Options :=
  match parseFile (files file) with
  | none => (false, configOptions)
  | some entries => (true, entries.foldl (addKey isOptional isReload) configOptions)

/-- The configuration of one module; the server is aborted where there is no result. -/
def loadModuleConfig (isReload : Bool) (mgr : ConfigMgr) (distFileName : Text)
    : Option ConfigMgr :=
  let defaultFileName := distFileName.take (distFileName.length - 5)
  let dist := loadFile files (setup.modulesPath ++ distFileName) false isReload mgr.configOptions
  if !isReload && !dist.1 then none
  else
    let default := loadFile files (setup.modulesPath ++ defaultFileName) true isReload dist.2
    some { mgr with
      configOptions := default.2
      moduleConfigFiles :=
        if dist.1 then
          mgr.moduleConfigFiles ++ [if default.1 then defaultFileName else distFileName]
        else mgr.moduleConfigFiles }

def loadModulesConfigs (isReload : Bool) (mgr : ConfigMgr) : Option ConfigMgr :=
  setup.additonalFiles.foldlM (loadModuleConfig setup files isReload) mgr

/-- The function starts with `LoadInitial`, which clears the options. -/
def loadAppConfigs (isReload : Bool) (mgr : ConfigMgr) : Option (Bool × ConfigMgr) :=
  let initial := loadFile files setup.distFilename false isReload ∅
  if initial.1 then
    let additional := loadFile files setup.filename true isReload initial.2
    (loadModulesConfigs setup files isReload
      { mgr with
        configOptions := additional.2
        usingDistConfig := mgr.usingDistConfig || !additional.1 }).map (fun mgr => (true, mgr))
  else some (false, { mgr with configOptions := initial.2 })

def reload (mgr : ConfigMgr) : Option (Bool × ConfigMgr) := do
  let (loaded, mgr) ← loadAppConfigs setup files true mgr
  if loaded then
    let mgr ← loadModulesConfigs setup files true mgr
    pure (true, mgr)
  else pure (false, mgr)

end Loading

-- What a reload leaves

section Reload

variable {setup : Setup} {files later : Text → File} {isOptional isReload : Bool}
  {configOptions : Options} {entries : List (Text × Text)} {name : Text} {mgr result : ConfigMgr}

theorem addKey_keeps (entry : Text × Text) (known : (configOptions.get? name).isSome)
    : ((addKey isOptional isReload configOptions entry).get? name).isSome := by
  unfold addKey
  split
  · exact known
  · rw [Table.get?_put]
    split
    · rfl
    · exact known

theorem foldl_addKey_keeps (known : (configOptions.get? name).isSome)
    : ((entries.foldl (addKey isOptional isReload) configOptions).get? name).isSome :=
  List.foldlRecOn (motive := fun options : Options => (options.get? name).isSome) entries _ known
    fun _ known entry _ => addKey_keeps entry known

theorem loadFile_keeps (file : Text) (known : (configOptions.get? name).isSome)
    : ((loadFile files file isOptional isReload configOptions).2.get? name).isSome := by
  unfold loadFile
  split
  · exact known
  · exact foldl_addKey_keeps known

/-- Every option is taken from a file that is not optional, and on a reload from any file. -/
theorem mem_foldl_addKey (all : isOptional = false ∨ isReload = true) {entry : Text × Text}
    (member : entry ∈ entries)
    : ((entries.foldl (addKey isOptional isReload) configOptions).get? entry.1).isSome := by
  induction entries generalizing configOptions with
  | nil => cases member
  | cons first entries ih =>
      rw [List.foldl_cons]
      rcases List.mem_cons.mp member with rfl | member
      · refine foldl_addKey_keeps ?_
        have added : addKey isOptional isReload configOptions entry
            = configOptions.put entry.1 entry.2 := by
          rcases all with rfl | rfl <;> simp [addKey]
        rw [added, Table.get?_put, if_pos rfl]
        rfl
      · exact ih member

/-- What an optional file may add on the initial load. -/
def Acceptable (configOptions : Options) (entries : List (Text × Text)) : Prop :=
  ∀ entry ∈ entries,
    (configOptions.get? entry.1).isSome ∨ isLoggingSystemOptions entry.1 = true

theorem foldl_addKey_of_acceptable (acceptable : Acceptable configOptions entries)
    : entries.foldl (addKey true false) configOptions
      = entries.foldl (addKey true true) configOptions := by
  induction entries generalizing configOptions with
  | nil => rfl
  | cons first entries ih =>
      have same : addKey true false configOptions first = addKey true true configOptions first := by
        rcases acceptable first List.mem_cons_self with known | logging
        · simp [addKey, Option.isNone_eq_false_iff.mpr known]
        · simp [addKey, logging]
      rw [List.foldl_cons, List.foldl_cons, same]
      refine ih fun entry member => ?_
      rcases acceptable entry (List.mem_cons_of_mem _ member) with known | logging
      · exact .inl (addKey_keeps first known)
      · exact .inr logging

/-- An option that is unknown at first stays so on the initial load. -/
theorem foldl_addKey_skips (unknown : configOptions.get? name = none)
    (other : isLoggingSystemOptions name = false)
    : (entries.foldl (addKey true false) configOptions).get? name = none := by
  refine List.foldlRecOn (motive := fun options : Options => options.get? name = none)
    entries _ unknown fun configOptions unknown entry _ => ?_
  unfold addKey
  by_cases same : entry.1 = name
  · rw [if_pos (by simp [same, unknown, other])]
    exact unknown
  · split
    · exact unknown
    · rw [Table.get?_put, if_neg (Ne.symm same)]
      exact unknown

theorem loadModuleConfig_keeps {distFileName : Text}
    (known : (mgr.configOptions.get? name).isSome)
    (loaded : loadModuleConfig setup files isReload mgr distFileName = some result)
    : (result.configOptions.get? name).isSome := by
  unfold loadModuleConfig at loaded
  dsimp only at loaded
  split at loaded
  · cases loaded
  · obtain rfl := Option.some.inj loaded
    exact loadFile_keeps _ (loadFile_keeps _ known)

theorem loadModulesConfigs_keeps (known : (mgr.configOptions.get? name).isSome)
    (loaded : loadModulesConfigs setup files isReload mgr = some result)
    : (result.configOptions.get? name).isSome :=
  Runs.foldlM_keeps loadModuleConfig_keeps known loaded

/-- On the initial load the distributed file of each module has to be there. -/
theorem exists_of_loadModulesConfigs
    (loaded : loadModulesConfigs setup files false mgr = some result)
    : ∀ file ∈ setup.additonalFiles, parseFile (files (setup.modulesPath ++ file)) ≠ none := by
  unfold loadModulesConfigs at loaded
  generalize setup.additonalFiles = additional at loaded ⊢
  induction additional generalizing mgr with
  | nil => exact fun _ member => absurd member List.not_mem_nil
  | cons first additional ih =>
      rw [List.foldlM_cons] at loaded
      obtain ⟨next, step, rest⟩ := Option.bind_eq_some_iff.mp loaded
      intro file member
      rcases List.mem_cons.mp member with rfl | member
      · intro missing
        simp [loadModuleConfig, loadFile, missing] at step
      · exact ih rest file member

theorem length_loadModulesConfigs
    (exist : ∀ file ∈ setup.additonalFiles, parseFile (files (setup.modulesPath ++ file)) ≠ none)
    (loaded : loadModulesConfigs setup files isReload mgr = some result)
    : result.moduleConfigFiles.length
      = mgr.moduleConfigFiles.length + setup.additonalFiles.length := by
  unfold loadModulesConfigs at loaded
  generalize setup.additonalFiles = additional at loaded exist ⊢
  induction additional generalizing mgr with
  | nil =>
      obtain rfl := Option.some.inj loaded
      rfl
  | cons first additional ih =>
      rw [List.foldlM_cons] at loaded
      obtain ⟨next, step, rest⟩ := Option.bind_eq_some_iff.mp loaded
      have one : next.moduleConfigFiles.length = mgr.moduleConfigFiles.length + 1 := by
        obtain ⟨entries, parsed⟩ := Option.ne_none_iff_exists'.mp (exist first List.mem_cons_self)
        have distLoaded : ∀ options,
            (loadFile files (setup.modulesPath ++ first) false isReload options).1 = true := by
          simp [loadFile, parsed]
        unfold loadModuleConfig at step
        simp only [distLoaded, Bool.not_true, Bool.and_false, Bool.false_eq_true, if_false,
          if_true] at step
        obtain rfl := Option.some.inj step
        simp
      rw [ih rest (fun file member => exist file (List.mem_cons_of_mem _ member)), one,
        List.length_cons]
      omega

def SameOptions (options other : Options) : Prop := ∀ name, options.get? name = other.get? name

/-- A reload at which the files have these contents leaves what it should. -/
structure ReloadKeeps (setup : Setup) (files later : Text → File) (mgr : ConfigMgr) : Prop where
  unchanged
    : later = files → ∃ reloaded, reload setup later mgr = some (true, reloaded)
        ∧ SameOptions reloaded.configOptions mgr.configOptions
        ∧ reloaded.moduleConfigFiles = mgr.moduleConfigFiles
  unreadable
    : parseFile (later setup.distFilename) = none →
        ∃ reloaded, reload setup later mgr = some (false, reloaded)
          ∧ SameOptions reloaded.configOptions mgr.configOptions

theorem foldl_addKey_required
    : entries.foldl (addKey false isReload) configOptions
      = entries.foldl (fun options entry => options.put entry.1 entry.2) configOptions := by
  have same : addKey false isReload = fun options entry => options.put entry.1 entry.2 := by
    funext options entry
    simp [addKey]
  rw [same]

/-- The options of the main file, which is read first. -/
def distOptions (setup : Setup) (files : Text → File) : Options :=
  (loadFile files setup.distFilename false false ∅).2

theorem loadAppConfigs_some (parsed : parseFile (files setup.distFilename)
    = some entries)
    : loadAppConfigs setup files isReload mgr
      = (loadModulesConfigs setup files isReload
          { mgr with
            configOptions :=
              (loadFile files setup.filename true isReload (distOptions setup files)).2
            usingDistConfig := mgr.usingDistConfig
              || !(loadFile files setup.filename true isReload (distOptions setup files)).1 }).map
          (fun mgr => (true, mgr)) := by
  have dist : loadFile files setup.distFilename false isReload ∅
      = (true, distOptions setup files) := by
    simp only [distOptions, loadFile, parsed, foldl_addKey_required]
  unfold loadAppConfigs
  rw [dist]
  rfl

theorem loadAppConfigs_none (missing : parseFile (files setup.distFilename) = none)
    : loadAppConfigs setup files isReload mgr = some (false, { mgr with configOptions := ∅ }) := by
  simp [loadAppConfigs, loadFile, missing]

theorem reload_none (missing : parseFile (later setup.distFilename) = none)
    : reload setup later mgr = some (false, { mgr with configOptions := ∅ }) := by
  unfold reload
  rw [loadAppConfigs_none missing]
  rfl

theorem exists_mem_of_parseFile {file : File} (parsed : parseFile file = some entries)
    : ∃ entry, entry ∈ entries := by
  cases file with
  | missing | broken => cases parsed
  | lines lines =>
      simp only [parseFile, Option.ite_none_left_eq_some, List.isEmpty_iff] at parsed
      obtain ⟨some_, same⟩ := parsed
      obtain rfl := Option.some.inj same
      exact List.exists_mem_of_ne_nil _ some_

/-- After the initial load a reload leaves what it should if and only if the main file can be read
again, and, where no file has changed, there are no module files and the second file adds no unknown
option.
-/
theorem reloadKeeps_iff (loaded : loadAppConfigs setup files false {} = some (true, mgr))
    : ReloadKeeps setup files later mgr
      ↔ parseFile (later setup.distFilename) ≠ none
        ∧ (later = files → setup.additonalFiles = []
          ∧ ∀ entries, parseFile (files setup.filename) = some entries →
            Acceptable (distOptions setup files) entries) := by
  obtain ⟨entries, parsed⟩ : ∃ entries,
      parseFile (files setup.distFilename) = some entries := by
    refine Option.ne_none_iff_exists'.mp fun missing => ?_
    rw [loadAppConfigs_none missing] at loaded
    cases loaded
  rw [loadAppConfigs_some parsed] at loaded
  obtain ⟨_, modules, same⟩ := Option.map_eq_some_iff.mp loaded
  obtain rfl := (Prod.mk.inj same).2
  constructor
  · intro keeps
    refine ⟨fun missing => ?_, fun unchanged => ?_⟩
    · -- the options are cleared, and there was one
      obtain ⟨reloaded, failed, same⟩ := keeps.unreadable missing
      rw [reload_none missing] at failed
      obtain rfl := (Prod.mk.inj (Option.some.inj failed)).2
      obtain ⟨entry, member⟩ := exists_mem_of_parseFile parsed
      have known : ((distOptions setup files).get? entry.1).isSome := by
        simp only [distOptions, loadFile, parsed]
        exact mem_foldl_addKey (.inl rfl) member
      have still := loadModulesConfigs_keeps (loadFile_keeps setup.filename known) modules
      rw [← same entry.1] at still
      cases still
    · subst unchanged
      obtain ⟨reloaded, succeeded, options, moduleFiles⟩ := keeps.unchanged rfl
      unfold reload at succeeded
      rw [loadAppConfigs_some parsed] at succeeded
      obtain ⟨_, mapped, second⟩ := Option.bind_eq_some_iff.mp succeeded
      obtain ⟨once, again, rfl⟩ := Option.map_eq_some_iff.mp mapped
      clear mapped
      obtain ⟨last, twice, ends⟩ := Option.bind_eq_some_iff.mp second
      obtain rfl := (Prod.mk.inj (Option.some.inj ends)).2
      have noModules : setup.additonalFiles = [] := by
        have exist := exists_of_loadModulesConfigs modules
        have atFirst := length_loadModulesConfigs exist modules
        have atOnce := length_loadModulesConfigs exist again
        have atTwice := length_loadModulesConfigs exist twice
        rw [moduleFiles] at atTwice
        exact List.length_eq_zero_iff.mp (by dsimp only at *; omega)
      refine ⟨noModules, fun override parsed entry member => ?_⟩
      unfold loadModulesConfigs at modules again twice
      rw [noModules] at modules again twice
      obtain rfl := Option.some.inj modules
      obtain rfl := Option.some.inj again
      obtain rfl := Option.some.inj twice
      by_contra unacceptable
      obtain ⟨unknown, other⟩ := not_or.mp unacceptable
      have added := options entry.1
      simp only [loadFile, parsed] at added
      rw [foldl_addKey_skips (Option.not_isSome_iff_eq_none.mp unknown)
        (Bool.not_eq_true _ ▸ other)] at added
      have there : ((override.foldl (addKey true true) (distOptions setup later)).get?
          entry.1).isSome := mem_foldl_addKey (.inr rfl) member
      rw [added] at there
      cases there
  · rintro ⟨readable, unchanged⟩
    refine ⟨fun same => ?_, fun missing => absurd missing readable⟩
    subst same
    obtain ⟨noModules, acceptable⟩ := unchanged rfl
    unfold loadModulesConfigs at modules
    rw [noModules] at modules
    obtain rfl := Option.some.inj modules
    have override : loadFile later setup.filename true true (distOptions setup later)
        = loadFile later setup.filename true false (distOptions setup later) := by
      unfold loadFile
      split
      · rfl
      · rename_i override parsed
        rw [foldl_addKey_of_acceptable (acceptable override parsed)]
    unfold reload
    rw [loadAppConfigs_some parsed, override]
    unfold loadModulesConfigs
    rw [noModules]
    exact ⟨_, rfl, fun _ => rfl, rfl⟩

/-- A main file with one option, and nothing else. -/
def rateFiles (file : Text) : File :=
  if file = "w.dist".toList then .lines ["Rate = \"3\" # x".toList] else .missing

theorem reloadKeeps_iff_applied
    : ∃ mgr, ReloadKeeps ⟨['w'], [], []⟩ rateFiles rateFiles mgr := by
  let mgr : ConfigMgr := ⟨Table.put ∅ "Rate".toList ['3'], true, []⟩
  refine ⟨mgr, (@reloadKeeps_iff ⟨['w'], [], []⟩ rateFiles rateFiles mgr rfl).mpr
    ⟨?_, fun _ => ⟨rfl, ?_⟩⟩⟩
  · intro missing
    cases missing
  · intro _ parsed
    cases parsed

/-- The same with a module. -/
def moduleFiles (file : Text) : File :=
  if file = "w.dist".toList ∨ file = "m.dist".toList then .lines ["Rate = 3".toList] else .missing

/-- The list of the module files grows with each reload, and without a main file no option is left.
-/
theorem reload_repeats_modules
    : ∃ setup mgr, loadAppConfigs setup moduleFiles false {} = some (true, mgr)
        ∧ ¬ReloadKeeps setup moduleFiles moduleFiles mgr
        ∧ ¬ReloadKeeps setup moduleFiles (fun _ => .missing) mgr := by
  let mgr : ConfigMgr := ⟨Table.put ∅ "Rate".toList ['3'], true, ["m.dist".toList]⟩
  refine ⟨⟨['w'], ["m.dist".toList], []⟩, mgr, rfl, fun keeps => ?_, fun keeps => ?_⟩
  · obtain ⟨reloaded, succeeded, -, same⟩ := keeps.unchanged rfl
    have thrice : (reload ⟨['w'], ["m.dist".toList], []⟩ moduleFiles mgr).map
        (fun outcome => outcome.2.moduleConfigFiles.length) = some 3 := by decide
    rw [succeeded, Option.map_some, same] at thrice
    cases thrice
  · obtain ⟨reloaded, failed, same⟩ := keeps.unreadable rfl
    rw [reload_none rfl] at failed
    obtain rfl := (Prod.mk.inj (Option.some.inj failed)).2
    cases same "Rate".toList

end Reload

-- Lookup

def iniKeyToEnvVarKey : Text → Text
  | [] => []
  | curr :: rest =>
      if curr = ' ' ∨ curr = '.' ∨ curr = '-' then '_' :: iniKeyToEnvVarKey rest
      else
        match rest with
        | [] => [curr.toUpper]
        | next :: _ =>
            if (!curr.isUpper && next.isUpper) || (!curr.isDigit && next.isDigit)
                || (curr.isDigit && !next.isDigit) then
              curr.toUpper :: '_' :: iniKeyToEnvVarKey rest
            else curr.toUpper :: iniKeyToEnvVarKey rest

example : iniKeyToEnvVarKey "LogDB.Opt.ClearTime".toList = "LOG_DB_OPT_CLEAR_TIME".toList := by
  decide

/-- The name that `getenv` is given ends at the first zero. -/
def envVarForIniKey (env : Text → Option Text) (key : Text) : Option Text :=
  env (("AC_".toList ++ iniKeyToEnvVarKey key).takeWhile (· ≠ Char.ofNat 0))

/-- `Warhead::StringTo<bool>`. -/
def stringToBool (text : Text) : Option Bool :=
  let lower := String.ofList (text.map Char.toLower)
  if lower ∈ ["1", "y", "on", "yes", "true"] then some true
  else if lower ∈ ["0", "n", "off", "no", "false"] then some false
  else none

/-- The types of options: `GetOption` is specialised for texts and truth values, and parses the
others with `Warhead::StringTo`.
-/
inductive OptionType : Type → Type 1 where
  | text : OptionType Text
  | bool : OptionType Bool
  | other {T : Type} (stringTo : Text → Option T) : OptionType T

section Lookup

variable (configOptions : Options) (env : Text → Option Text) (name : Text)

/-- `GetValueDefault`. Without an option of this name the text of the environment is read, and then
the option that was not found is parsed, which is undefined.
-/
def getValueDefault {T : Type} (stringTo : Text → Option T) (default : T) : Option T :=
  match configOptions.get? name with
  | some value => some ((stringTo value).getD default)
  | none =>
      match envVarForIniKey env name with
      | some _ => none
      | none => some default

/-- `GetValueDefault<std::string>` -/
def getTextDefault (default : Text) : Text :=
  match configOptions.get? name with
  | some value => value
  | none => (envVarForIniKey env name).getD default

def getOption {T : Type} : OptionType T → T → Option T
  | .text, default => some (getTextDefault configOptions env name default)
  | .bool, default =>
      let val := getTextDefault configOptions env name (if default then ['1'] else ['0'])
      some ((stringToBool val).getD default)
  | .other stringTo, default => getValueDefault configOptions env name stringTo default

/-- What is written for an option: in the files, or else in the environment. -/
def written : Option Text := (configOptions.get? name).or (envVarForIniKey env name)

end Lookup

def OptionType.parse {T : Type} : OptionType T → Text → Option T
  | .text, value => some value
  | .bool, value => stringToBool value
  | .other stringTo, value => stringTo value

def OptionType.isSpecialised {T : Type} : OptionType T → Bool
  | .other _ => false
  | _ => true

/-- What is written is returned where it parses and the default otherwise, if and only if the option
is in the map, or in no environment, or of a type with a function of its own.
-/
theorem getOption_eq_written_iff {T : Type} (type : OptionType T) (configOptions : Options)
    (env : Text → Option Text) (name : Text) (default : T)
    : getOption configOptions env name type default
        = some (((written configOptions env name).bind type.parse).getD default)
      ↔ (configOptions.get? name).isSome ∨ envVarForIniKey env name = none
        ∨ type.isSpecialised = true := by
  unfold written
  cases type with
  | text =>
      simp only [getOption, getTextDefault, OptionType.isSpecialised, or_true, iff_true]
      generalize configOptions.get? name = option
      generalize envVarForIniKey env name = variable_
      cases option <;> cases variable_ <;> rfl
  | bool =>
      simp only [getOption, getTextDefault, OptionType.isSpecialised, or_true, iff_true]
      generalize configOptions.get? name = option
      generalize envVarForIniKey env name = variable_
      cases option with
      | some value => rfl
      | none =>
          cases variable_ with
          | some value => rfl
          | none => cases default <;> rfl
  | other stringTo =>
      simp only [getOption, getValueDefault, OptionType.isSpecialised]
      generalize configOptions.get? name = option
      generalize envVarForIniKey env name = variable_
      cases option with
      | some value => simp [OptionType.parse]
      | none => cases variable_ <;> simp

/-- A number that only the environment has. -/
theorem getOption_reads_beyond_the_map
    : ∃ (env : Text → Option Text) (stringTo : Text → Option Nat),
        getOption ∅ env "Rate".toList (.other stringTo) 1
          ≠ some (((written ∅ env "Rate".toList).bind stringTo).getD 1) := by
  refine ⟨fun key => if key = "AC_RATE".toList then some ['3'] else none,
    fun text => if text = ['3'] then some 3 else none, ?_⟩
  decide

end WarheadCore.Configuration
