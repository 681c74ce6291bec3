import DeepinServiceManager.CStrings
import DeepinServiceManager.ConfigScans
import DeepinServiceManager.SoFileVersions

namespace DeepinServiceManager

open CStrings

/-- Whether the library loads, and the string that its `qVersion` returns when there is such a symbol. -/
structure QLibrary where
  loads : Bool
  qVersion : Option (List UInt8)

namespace QVersionNumber

def majorVersion : QVersionNumber → ℕ
  | .null => 0
  | .segments major _ _ => major

def isSpace (b : UInt8) : Bool := b = 32 || (9 ≤ b && b ≤ 13)

def isDigit (b : UInt8) : Bool := 48 ≤ b && b ≤ 57

def digitsValue (digits : List UInt8) : ℕ := digits.foldl (fun n b => 10 * n + (b.toNat - 48)) 0

def skipSign : List UInt8 → List UInt8
  | [] => []
  | b :: rest => if b = 43 then rest else b :: rest

/-- `majorVersion` of `fromString`, which is null where the first number does not fit in an `int`. -/
def majorOfString (s : List UInt8) : ℕ :=
  let value := digitsValue ((skipSign (s.dropWhile isSpace)).takeWhile isDigit)
  if value < 2 ^ 31 then value else 0

end QVersionNumber

structure LibraryCheck where
  accepted : Bool
  opened : Bool
  deriving DecidableEq

namespace Utils

open QVersionNumber

/-- The character '6'. -/
def USE_QT_VERSION_MAJOR : UInt8 := 54

-- The address of a single character is passed as a string; `after` is the memory behind it.
def checkLibraryQtVersion (m : Machine) (after : Block) (file : Option FileContent) (library : QLibrary) :
    Option LibraryCheck := do
  let libraryQtVersion ← qtVersionFromSo m file
  let expectedMajor := majorOfString (← cstring (USE_QT_VERSION_MAJOR :: after))
  if libraryQtVersion ≠ .null then return ⟨libraryQtVersion.majorVersion = expectedMajor, false⟩
  else if !library.loads then return ⟨false, true⟩
  else
    match library.qVersion with
    | none => return ⟨false, true⟩
    | some qtVersion => return ⟨majorOfString qtVersion = expectedMajor, true⟩

end Utils

namespace LibraryChecks

open ByteWords ElfFiles Utils QVersionNumber SoFileVersions ConfigScans

structure Readable (m : Machine) (content : FileContent) : Prop where
  file : WellFormed .elf64 .little content.bytes
  index : shstrndx .elf64 .little content.bytes < shnum .elf64 .little content.bytes
  names : HasNames .elf64 .little content.bytes
  inside : ∀ sh ∈ sectionHeaders .elf64 .little content.bytes,
    nameOf .elf64 .little content.bytes sh = qtversionName → Inside content.bytes sh
  allocates : ∀ n ≤ content.bytes.length, m.allocates n = true

/-- A file that cannot be opened is as good as one without a version. -/
def Checkable (m : Machine) (file : Option FileContent) : Prop := ∀ content, file = some content → Readable m content

def versionTag : Option FileContent → QVersionNumber
  | none => .null
  | some content => encodedVersion .elf64 .little content.bytes

/-- What is known of the major version: the version section first, and what the loaded library answers without it. -/
def statedMajor (file : Option FileContent) (library : QLibrary) : Option ℕ :=
  match versionTag file with
  | .segments major _ _ => some major
  | .null => if library.loads then library.qVersion.map majorOfString else none

def judged (major : ℕ) (file : Option FileContent) (library : QLibrary) : LibraryCheck :=
  ⟨statedMajor file library = some major, versionTag file = .null⟩

variable {m : Machine} {after : Block} {file : Option FileContent}

theorem qtVersionFromSo_tag (hlittle : m.order = .little) (hfile : Checkable m file) :
    qtVersionFromSo m file = some (versionTag file) := by
  cases file with
  | none => rfl
  | some content =>
    obtain ⟨hfile, hindex, hnames, hinside, halloc⟩ := hfile content rfl
    rw [← hlittle] at hfile hindex hnames hinside
    exact qtVersionFromSo_eq hlittle hfile hindex hnames hinside halloc

theorem check_eq (hlittle : m.order = .little) (hfile : Checkable m file) (library : QLibrary) :
    checkLibraryQtVersion m after file library =
      (cstring (USE_QT_VERSION_MAJOR :: after)).map fun s => judged (majorOfString s) file library := by
  rw [checkLibraryQtVersion, qtVersionFromSo_tag hlittle hfile, Option.bind_eq_bind, Option.bind_some]
  cases hexpected : cstring (USE_QT_VERSION_MAJOR :: after) with
  | none => rfl
  | some s =>
    unfold judged statedMajor
    cases htag : versionTag file with
    | segments major minor patch =>
      simp only [Option.map_some, reduceCtorEq, not_false_eq_true, ne_eq, if_true, majorVersion, Option.some.injEq]
      rfl
    | null =>
      obtain ⟨loads, qVersion⟩ := library
      cases loads <;> cases qVersion <;> simp

theorem le_digitsValue (digits : List UInt8) (n : ℕ) :
    n ≤ digits.foldl (fun n b => 10 * n + (b.toNat - 48)) n := by
  induction digits generalizing n with
  | nil => exact Nat.le_refl n
  | cons b digits ih =>
    rw [List.foldl_cons]
    have hstep := ih (10 * n + (b.toNat - 48))
    omega

theorem majorOfString_six (s : List UInt8) : majorOfString (USE_QT_VERSION_MAJOR :: s) = 6 ↔
    ∀ b, s.head? = some b → isDigit b = false := by
  have hspace : isSpace USE_QT_VERSION_MAJOR = false := by decide
  have hdigit : isDigit USE_QT_VERSION_MAJOR = true := by decide
  have hsign : skipSign (USE_QT_VERSION_MAJOR :: s) = USE_QT_VERSION_MAJOR :: s := rfl
  rw [majorOfString, List.dropWhile_cons_of_neg (by rw [hspace]; decide), hsign, List.takeWhile_cons_of_pos hdigit]
  cases s with
  | nil => simp [digitsValue, USE_QT_VERSION_MAJOR]
  | cons b s =>
    cases hb : isDigit b with
    | false => simp [hb, digitsValue, USE_QT_VERSION_MAJOR]
    | true =>
      have hvalue : 60 ≤ digitsValue (USE_QT_VERSION_MAJOR :: b :: s.takeWhile isDigit) := by
        have hle := le_digitsValue (s.takeWhile isDigit) (60 + (b.toNat - 48))
        change 60 ≤ (s.takeWhile isDigit).foldl (fun n b => 10 * n + (b.toNat - 48)) (60 + (b.toNat - 48))
        omega
      rw [List.takeWhile_cons_of_pos hb]
      constructor
      · intro h
        split_ifs at h
        omega
      · intro h
        rw [h b rfl] at hb
        cases hb

theorem cstring_expected :
    cstring (USE_QT_VERSION_MAJOR :: after) = (cstring after).map (USE_QT_VERSION_MAJOR :: ·) :=
  if_neg (by decide)

theorem cstring_isSome : (∃ s, cstring after = some s) ↔ 0 ∈ after := by
  constructor
  · rintro ⟨s, hs⟩
    obtain ⟨-, rest, rfl⟩ := cstring_eq_some_iff.mp hs
    simp
  · intro h
    obtain ⟨s, rest, rfl, hs⟩ := List.eq_append_cons_of_mem h
    exact ⟨s, cstring_append hs rest⟩

theorem head_digit {s : List UInt8} (hs : cstring after = some s) {b : UInt8} (hb : isDigit b = true) :
    s.head? = some b ↔ after.head? = some b := by
  obtain ⟨-, rest, rfl⟩ := cstring_eq_some_iff.mp hs
  cases s with
  | cons c s => rfl
  | nil =>
    simp only [List.nil_append, List.head?_cons, Option.some.injEq, List.head?_nil, reduceCtorEq, false_iff]
    rintro rfl
    exact absurd hb (by decide)

def Ends (after : Block) : Prop := ∀ b, after.head? = some b → isDigit b = false

theorem check_major (hlittle : m.order = .little) (hzero : 0 ∈ after) :
    ∃ major, (major = 6 ↔ Ends after) ∧ ∀ file library, Checkable m file →
      checkLibraryQtVersion m after file library = some (judged major file library) := by
  obtain ⟨s, hs⟩ := cstring_isSome.mpr hzero
  refine ⟨majorOfString (USE_QT_VERSION_MAJOR :: s), ?_, ?_⟩
  · rw [majorOfString_six]
    refine forall_congr' fun b => ?_
    cases hdigit : isDigit b with
    | false => simp
    | true => rw [head_digit hs hdigit]
  · intro file library hfile
    rw [check_eq hlittle hfile, cstring_expected, hs, Option.map_some, Option.map_some]

/-- The major version compared with is the number that begins with the constant and goes on in the memory behind it. -/
theorem check_cases (m : Machine) (hlittle : m.order = .little) (after : Block) :
    (0 ∉ after → ∀ file library, Checkable m file → checkLibraryQtVersion m after file library = none) ∧
    (0 ∈ after → Ends after → ∀ file library, Checkable m file →
      checkLibraryQtVersion m after file library = some (judged 6 file library)) ∧
    (0 ∈ after → ¬ Ends after → ∃ major ≠ 6, ∀ file library, Checkable m file →
      checkLibraryQtVersion m after file library = some (judged major file library)) := by
  refine ⟨?_, ?_, ?_⟩
  · intro hzero file library hfile
    have hnone : cstring after = none := by
      rw [← cstring_isSome, not_exists] at hzero
      exact Option.eq_none_iff_forall_ne_some.mpr hzero
    rw [check_eq hlittle hfile, cstring_expected, hnone]
    rfl
  · intro hzero hends
    obtain ⟨major, hsix, hcheck⟩ := check_major hlittle hzero
    rwa [hsix.mpr hends] at hcheck
  · intro hzero hends
    obtain ⟨major, hsix, hcheck⟩ := check_major hlittle hzero
    exact ⟨major, fun h => hends (hsix.mp h), hcheck⟩

def sampleMachine : Machine := ⟨.little, fun _ => true, false⟩

theorem sample_small : (sample .elf64 .little 62).length < 2 ^ 63 := by decide +kernel

def sampleContent : FileContent := ⟨sample .elf64 .little 62, sample_small⟩

theorem sample_checkable : Checkable sampleMachine (some sampleContent) := by
  rintro content ⟨⟩
  exact ⟨sample_wellFormed, by decide +kernel, sample_wellFormed.names (by decide +kernel), by decide +kernel,
    fun _ _ => rfl⟩

theorem zero_ends : Ends [0] := by
  rintro b ⟨⟩
  rfl

theorem check_cases_sample : checkLibraryQtVersion sampleMachine [0] (some sampleContent) ⟨true, none⟩ =
    some ⟨true, false⟩ := by
  rw [(check_cases sampleMachine rfl [0]).2.1 (by decide) zero_ends _ ⟨true, none⟩ sample_checkable]
  decide +kernel

/-- The libraries behind the plugin paths, the outcome of whose check is what the host stands for. -/
structure Checked (host : Host) (m : Machine) (after : Block) (files : String → Option FileContent)
    (libraries : String → QLibrary) : Prop where
  checkable : ∀ path, Checkable m (files path)
  outcome : ∀ path, (checkLibraryQtVersion m after (files path) (libraries path)).map LibraryCheck.accepted =
    some (host.pluginQtVersion path)

variable {host : Host} {files : String → Option FileContent} {libraries : String → QLibrary}

theorem qtVersionOk_states (hchecked : Checked host m after files libraries) (hlittle : m.order = .little)
    (hzero : 0 ∈ after) {policy : Policy} (hqt : policy.sdkType = .QT) (hok : qtVersionOk host policy = true) :
    statedMajor (files policy.pluginPath) (libraries policy.pluginPath) = some 6 ↔ Ends after := by
  obtain ⟨major, hsix, hcheck⟩ := check_major hlittle hzero
  have houtcome := hchecked.outcome policy.pluginPath
  rw [hcheck _ _ (hchecked.checkable _), Option.map_some, Option.some.injEq] at houtcome
  have hmajor : statedMajor (files policy.pluginPath) (libraries policy.pluginPath) = some major := by
    simpa [qtVersionOk, checkPluginQtVersion, hqt, ← houtcome, judged] using hok
  rw [hmajor, Option.some.injEq, hsix]

def Creates (host : Host) (loader : PluginLoader) (memory : PolicyPtr → Uninitialised) (timerFires : ℤ → Bool)
    (i : PolicyPtr) : Prop :=
  (∃ group loaded, loader.loadByGroup host memory timerFires group = some loaded ∧ i ∈ loaded.created) ∨
    ∃ name, i ∈ (loader.loadByName host memory name).created

theorem Creates.qtVersionOk {loader : PluginLoader} {memory : PolicyPtr → Uninitialised} {timerFires : ℤ → Bool}
    {i : PolicyPtr} (h : Creates host loader memory timerFires i) :
    qtVersionOk host (parsedPolicys (host.configDir loader.m_type) memory i) = true := by
  rcases h with ⟨group, loaded, hload, hi⟩ | ⟨name, hi⟩
  · exact (groupAccepts_iff.mp (mem_groupPolicys.mp (loadByGroup_created hload hi).1).2).2.2.2
  · rw [mem_loadByName, loadByNameFile_eq] at hi
    exact (nameAccepts_iff.mp hi.2.1).2.2

theorem created_states (hchecked : Checked host m after files libraries) (hlittle : m.order = .little)
    (hzero : 0 ∈ after) (loader : PluginLoader) (memory : PolicyPtr → Uninitialised) (timerFires : ℤ → Bool)
    (i : PolicyPtr) (hi : Creates host loader memory timerFires i)
    (hqt : (parsedPolicys (host.configDir loader.m_type) memory i).sdkType = .QT) :
    statedMajor (files (parsedPolicys (host.configDir loader.m_type) memory i).pluginPath)
      (libraries (parsedPolicys (host.configDir loader.m_type) memory i).pluginPath) = some 6 ↔ Ends after :=
  qtVersionOk_states hchecked hlittle hzero hqt hi.qtVersionOk

def qtFile : QFileInfo := configFile [("name", .string "demo"), ("pluginType", .string "qt"),
  ("pluginPath", .string "libdemo.so"), ("startType", .string "OnDemand")]

theorem qtFile_checked : Checked (sampleHost "x11" [qtFile]) sampleMachine [0] (fun _ => some sampleContent)
    (fun _ => ⟨true, none⟩) := by
  have hcheck : checkLibraryQtVersion sampleMachine [0] (some sampleContent) ⟨true, none⟩ = some ⟨true, false⟩ := by
    decide +kernel
  refine ⟨fun _ => sample_checkable, fun _ => ?_⟩
  rw [hcheck]
  rfl

theorem created_states_qtFile : 0 ∈ ((⟨.SessionBus, false⟩ : PluginLoader).loadByName (sampleHost "x11" [qtFile])
      (fun _ => ⟨.SD, 0, 0⟩) "demo").created ∧ statedMajor (some sampleContent) ⟨true, none⟩ = some 6 := by
  have hcreated : 0 ∈ ((⟨.SessionBus, false⟩ : PluginLoader).loadByName (sampleHost "x11" [qtFile])
      (fun _ => ⟨.SD, 0, 0⟩) "demo").created := by
    decide +kernel
  exact ⟨hcreated, (created_states qtFile_checked rfl (by decide) ⟨.SessionBus, false⟩ (fun _ => ⟨.SD, 0, 0⟩)
    (fun _ => true) 0 (.inr ⟨"demo", hcreated⟩) (by decide +kernel)).mpr zero_ends⟩

end LibraryChecks

end DeepinServiceManager
