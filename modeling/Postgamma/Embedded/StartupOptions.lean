import Mathlib

/-!
# The startup options of a connection

`build_startup_options` of `postgamma.c` writes one `-c` argument for each setting and escapes the
values, behind a pass that computes the length.  The server splits the string at the spaces that are
not escaped.  The classes of characters are those of the locale, sizes wrap at the largest one.
-/

namespace Postgamma.Embedded

/-- A character behind another one takes its literal meaning. -/
def backslash : UInt8 := 0x5C

/-- The classes of `ctype.h` and what every locale promises of them. -/
structure Ctype where
  isspace : UInt8 → Bool
  isalnum : UInt8 → Bool
  tolower : UInt8 → UInt8
  blank : isspace 0x20 = true
  alnum : ∀ character, isalnum character = true → isspace character = false
  punctuation : ∀ character ∈ [0x2D, 0x2E, 0x3D, backslash, 0x5F], isspace character = false
  letter : isspace 0x63 = false
  slash : isalnum backslash = false

/-- A string of C without its terminator. -/
structure CString where
  bytes : List UInt8
  terminated : 0 ∉ bytes

/-- `pgm_setting`, whose pointers may be null. -/
structure Setting where
  name : Option CString
  value : Option CString

/-- The errors of the builder. -/
inductive StartupError
  | invalid
  | overflow
  | memory
  deriving DecidableEq

/-- The string that the builder returns, and the length that it was given. -/
structure StartupOptions where
  length : ℕ
  bytes : List UInt8

namespace Ctype

variable (ctype : Ctype)

def nameCharacter (character : UInt8) : Bool :=
  ctype.isalnum character || character == 0x5F || character == 0x2E

def nameValid (name : List UInt8) : Bool := name ≠ [] && name.all ctype.nameCharacter

/-- `settings_are_valid`; two names are equal when `strcasecmp` says so. -/
def settingsAreValid : List (List UInt8) → List Setting → Bool
  | _, [] => true
  | previous, setting :: rest =>
      match setting.name, setting.value with
      | some name, some _ =>
          ctype.nameValid name.bytes &&
            !previous.contains (name.bytes.map ctype.tolower) &&
            settingsAreValid (name.bytes.map ctype.tolower :: previous) rest
      | _, _ => false

/-- The characters that the builder escapes. -/
def escaped (character : UInt8) : Bool := ctype.isspace character || character == backslash

/-- The bytes of a setting: two for the option, the name, the sign, the value with its escapes, and
one for a separator. -/
def cost (name value : List UInt8) : ℕ :=
  name.length + value.length + 4 + value.countP ctype.escaped

/-- The pass over the lengths; the test of the sum leaves out the escapes. -/
def lengthPass (sizeMax : ℕ) : ℕ → List Setting → Except StartupError ℕ
  | length, [] => .ok length
  | length, setting :: rest =>
      match setting.name, setting.value with
      | some name, some value =>
          if !ctype.nameValid name.bytes then .error .invalid
          else if ((sizeMax : ℤ) - name.bytes.length - value.bytes.length - 5) % (sizeMax + 1) <
              length then .error .overflow
          else lengthPass sizeMax
            ((length + ctype.cost name.bytes value.bytes) % (sizeMax + 1)) rest
      | _, _ => .error .invalid

def escape (value : List UInt8) : List UInt8 :=
  value.flatMap fun character =>
    if ctype.escaped character then [backslash, character] else [character]

/-- The argument of a setting as it is written. -/
def written (setting : Setting) : List UInt8 :=
  match setting.name, setting.value with
  | some name, some value => [0x2D, 0x63] ++ name.bytes ++ [0x3D] ++ ctype.escape value.bytes
  | _, _ => []

/-- The pass that writes, with a space in front of every setting but the first one. -/
def writePass : List Setting → List UInt8
  | [] => []
  | setting :: rest => ctype.written setting ++ rest.flatMap fun next => 0x20 :: ctype.written next

/-- `build_startup_options`; `memory` tells whether the allocation succeeds. -/
def buildStartupOptions (sizeMax : ℕ) (settings : List Setting) (memory : Bool) :
    Except StartupError StartupOptions :=
  if settings = [] then if memory then .ok ⟨0, []⟩ else .error .memory
  else
    match ctype.lengthPass sizeMax 0 settings with
    | .error status => .error status
    | .ok length => if memory then .ok ⟨length, ctype.writePass settings⟩ else .error .memory

/-- `pg_split_opts`: the word that has been begun and whether the last character was a
backslash. -/
def splitOptions : Option (List UInt8) → Bool → List UInt8 → List (List UInt8)
  | none, _, [] => []
  | some word, _, [] => [word]
  | none, escape, character :: rest =>
      if ctype.isspace character then splitOptions none escape rest
      else if character = backslash then splitOptions (some []) true rest
      else splitOptions (some [character]) false rest
  | some word, escape, character :: rest =>
      if ctype.isspace character ∧ escape = false then word :: splitOptions none false rest
      else if escape = false ∧ character = backslash then splitOptions (some word) true rest
      else splitOptions (some (word ++ [character])) false rest

/-- The argument that a setting stands for. -/
def argument (setting : Setting) : List UInt8 :=
  match setting.name, setting.value with
  | some name, some value => [0x2D, 0x63] ++ name.bytes ++ [0x3D] ++ value.bytes
  | _, _ => []

variable {ctype}

/-- Characters that are neither spaces nor backslashes go into the word. -/
theorem splitOptions_plain {plain : List UInt8}
    (ordinary : ∀ character ∈ plain, ctype.escaped character = false) (word rest : List UInt8) :
    ctype.splitOptions (some word) false (plain ++ rest) =
      ctype.splitOptions (some (word ++ plain)) false rest := by
  induction plain generalizing word with
  | nil => simp
  | cons character plain induction =>
      have first := ordinary character (by simp)
      rw [escaped, Bool.or_eq_false_iff, beq_eq_false_iff_ne] at first
      have later := induction (fun other member => ordinary other (by simp [member]))
        (word ++ [character])
      rw [List.cons_append, splitOptions, if_neg (by simp [first.1]), if_neg (by simp [first.2]),
        later, List.append_assoc, List.singleton_append]

/-- An escaped value goes into the word as it is. -/
theorem splitOptions_escape (value word rest : List UInt8) :
    ctype.splitOptions (some word) false (ctype.escape value ++ rest) =
      ctype.splitOptions (some (word ++ value)) false rest := by
  induction value generalizing word with
  | nil => simp [escape]
  | cons character value induction =>
      have later := induction (word ++ [character])
      rw [List.append_assoc, List.singleton_append] at later
      rw [escape, List.flatMap_cons, List.append_assoc, ← escape]
      cases special : ctype.escaped character with
      | true =>
          have slash : ctype.isspace backslash = false :=
            ctype.punctuation backslash (by simp)
          rw [if_pos rfl]
          simp only [List.cons_append, List.nil_append]
          rw [splitOptions, if_neg (by simp [slash]), if_pos ⟨rfl, rfl⟩, splitOptions,
            if_neg (by simp), if_neg (by simp), later]
      | false =>
          have plain := @splitOptions_plain ctype [character] (by simpa using special) word
            (ctype.escape value ++ rest)
          rw [if_neg (by simp), plain, later]

/-- What follows an argument: the end of the string, or a space. -/
theorem splitOptions_word (word rest : List UInt8) :
    ctype.splitOptions (some word) false (0x20 :: rest) =
      word :: ctype.splitOptions none false rest := by
  rw [splitOptions, if_pos ⟨ctype.blank, rfl⟩]

theorem nameCharacter_plain {character : UInt8} (valid : ctype.nameCharacter character = true) :
    ctype.escaped character = false := by
  have spaces := ctype.punctuation
  simp only [nameCharacter, Bool.or_eq_true, beq_iff_eq] at valid
  rw [escaped, Bool.or_eq_false_iff, beq_eq_false_iff_ne]
  rcases valid with (alnum | rfl) | rfl
  · refine ⟨ctype.alnum character alnum, ?_⟩
    rintro rfl
    rw [ctype.slash] at alnum
    cases alnum
  · exact ⟨spaces _ (by simp), by decide⟩
  · exact ⟨spaces _ (by simp), by decide⟩

/-- The argument of a setting is read as it was meant. -/
theorem splitOptions_written {name value : CString} (valid : ctype.nameValid name.bytes = true)
    (rest : List UInt8) :
    ctype.splitOptions none false (ctype.written ⟨some name, some value⟩ ++ rest) =
      ctype.splitOptions (some (argument ⟨some name, some value⟩)) false rest := by
  have dash : ctype.isspace 0x2D = false := ctype.punctuation _ (by simp)
  have plain : ∀ character ∈ [0x63] ++ name.bytes ++ [0x3D],
      ctype.escaped character = false := by
    intro character member
    rw [nameValid, Bool.and_eq_true, List.all_eq_true] at valid
    simp only [List.mem_append, List.mem_singleton] at member
    rcases member with (rfl | member) | rfl
    · simp [escaped, ctype.letter, backslash]
    · exact nameCharacter_plain (valid.2 character member)
    · have equals : ctype.isspace 0x3D = false := ctype.punctuation _ (by simp)
      simp [escaped, equals, backslash]
  have shape : ctype.written ⟨some name, some value⟩ ++ rest =
      0x2D :: ([0x63] ++ name.bytes ++ [0x3D] ++ (ctype.escape value.bytes ++ rest)) := by
    simp [written]
  rw [shape, splitOptions, if_neg (by simp [dash]), if_neg (by decide), splitOptions_plain plain,
    splitOptions_escape]
  simp [argument]

/-- A setting whose pointers are set and whose name is valid. -/
def Accepted (ctype : Ctype) (setting : Setting) : Prop :=
  ∃ name value : CString, setting = ⟨some name, some value⟩ ∧ ctype.nameValid name.bytes = true

theorem settingsAreValid_accepted {settings : List Setting} {previous : List (List UInt8)}
    (valid : ctype.settingsAreValid previous settings = true) :
    ∀ setting ∈ settings, ctype.Accepted setting := by
  induction settings generalizing previous with
  | nil => simp
  | cons setting rest induction =>
      obtain ⟨name, value⟩ := setting
      cases name with
      | none => simp [settingsAreValid] at valid
      | some name =>
          cases value with
          | none => simp [settingsAreValid] at valid
          | some value =>
              simp only [settingsAreValid, Bool.and_eq_true] at valid
              intro setting member
              rcases List.mem_cons.mp member with rfl | member
              · exact ⟨name, value, rfl, valid.1.1⟩
              · exact induction valid.2 setting member

/-- The server reads the arguments of the settings in their order. -/
theorem splitOptions_writePass {setting : Setting} {rest : List Setting}
    (first : ctype.Accepted setting) (others : ∀ next ∈ rest, ctype.Accepted next) :
    ctype.splitOptions none false (ctype.writePass (setting :: rest)) =
      (setting :: rest).map argument := by
  induction rest generalizing setting with
  | nil =>
      obtain ⟨name, value, rfl, valid⟩ := first
      have read := @splitOptions_written _ _ value valid []
      simpa [writePass, splitOptions] using read
  | cons next rest induction =>
      obtain ⟨name, value, rfl, valid⟩ := first
      have later := induction (others next (by simp)) fun other member =>
        others other (by simp [member])
      have shape : ctype.writePass (⟨some name, some value⟩ :: next :: rest) =
          ctype.written ⟨some name, some value⟩ ++ 0x20 :: ctype.writePass (next :: rest) := by
        simp [writePass]
      rw [shape, splitOptions_written valid, splitOptions_word, later]
      rfl

def settingCost (ctype : Ctype) (setting : Setting) : ℕ :=
  match setting.name, setting.value with
  | some name, some value => ctype.cost name.bytes value.bytes
  | _, _ => 0

/-- The bytes of all settings, counted without an end. -/
def total (ctype : Ctype) (settings : List Setting) : ℕ := (settings.map ctype.settingCost).sum

theorem escape_length (value : List UInt8) :
    (ctype.escape value).length = value.length + value.countP ctype.escaped := by
  induction value with
  | nil => rfl
  | cons character value induction =>
      rw [escape, List.flatMap_cons, List.length_append, ← escape, induction, List.length_cons,
        List.countP_cons]
      cases ctype.escaped character <;> simp <;> omega

theorem written_length {setting : Setting} (accepted : ctype.Accepted setting) :
    (ctype.written setting).length + 1 = ctype.settingCost setting := by
  obtain ⟨name, value, rfl, -⟩ := accepted
  simp only [written, settingCost, cost, List.length_append, escape_length, List.length_cons,
    List.length_nil]
  omega

theorem writePass_length {setting : Setting} {rest : List Setting}
    (first : ctype.Accepted setting) (others : ∀ next ∈ rest, ctype.Accepted next) :
    (ctype.writePass (setting :: rest)).length + 1 = ctype.total (setting :: rest) := by
  have behind : ∀ settings : List Setting, (∀ next ∈ settings, ctype.Accepted next) →
      (settings.flatMap fun next => 0x20 :: ctype.written next).length = ctype.total settings := by
    intro settings accepted
    induction settings with
    | nil => rfl
    | cons next settings induction =>
        have later := induction fun other member => accepted other (by simp [member])
        have here := written_length (accepted next (by simp))
        simp only [total, List.map_cons, List.sum_cons] at later ⊢
        rw [List.flatMap_cons, List.length_append, later, List.length_cons, here]
  have here := written_length first
  rw [writePass, List.length_append, behind rest others, total, total, List.map_cons,
    List.sum_cons]
  omega

/-- The pass over the lengths computes their sum, which wraps. -/
theorem lengthPass_ok {sizeMax length result : ℕ} {settings : List Setting}
    (small : length ≤ sizeMax) (done : ctype.lengthPass sizeMax length settings = .ok result) :
    result = (length + ctype.total settings) % (sizeMax + 1) := by
  induction settings generalizing length with
  | nil =>
      obtain rfl := Except.ok.inj done
      exact (Nat.mod_eq_of_lt (Nat.lt_succ_of_le small)).symm
  | cons setting rest induction =>
      obtain ⟨name, value⟩ := setting
      cases name with
      | none => simp [lengthPass] at done
      | some name =>
          cases value with
          | none => simp [lengthPass] at done
          | some value =>
              simp only [lengthPass] at done
              split_ifs at done
              have next := induction
                (Nat.le_of_lt_succ (Nat.mod_lt _ (Nat.succ_pos sizeMax))) done
              rw [next, Nat.mod_add_mod, total, total, List.map_cons, List.sum_cons, add_assoc]
              rfl

/-- What the builder promises of its string. -/
def Faithful (ctype : Ctype) (settings : List Setting) (options : StartupOptions) : Prop :=
  ctype.splitOptions none false options.bytes = settings.map argument ∧
    (settings ≠ [] → options.bytes.length + 1 = options.length)

/-- The server reads the settings back, and the string with its terminator has the computed length
exactly when that length does not wrap. -/
theorem startup_options_faithful {sizeMax : ℕ} {settings : List Setting} {memory : Bool}
    {options : StartupOptions} (valid : ctype.settingsAreValid [] settings = true)
    (built : ctype.buildStartupOptions sizeMax settings memory = .ok options) :
    ctype.Faithful settings options ↔ ctype.total settings ≤ sizeMax := by
  cases settings with
  | nil =>
      rw [buildStartupOptions, if_pos rfl] at built
      split_ifs at built
      obtain rfl := Except.ok.inj built
      exact ⟨fun _ => Nat.zero_le _, fun _ => ⟨rfl, fun some_setting => absurd rfl some_setting⟩⟩
  | cons setting rest =>
      have accepted := settingsAreValid_accepted valid
      have first := accepted setting (by simp)
      have others := fun next member => accepted next (List.mem_cons_of_mem setting member)
      rw [buildStartupOptions, if_neg (by simp)] at built
      cases passed : ctype.lengthPass sizeMax 0 (setting :: rest) with
      | error status =>
          rw [passed] at built
          cases built
      | ok length =>
          rw [passed] at built
          simp only at built
          split_ifs at built
          obtain rfl := Except.ok.inj built
          have computed := lengthPass_ok (Nat.zero_le sizeMax) passed
          have written := writePass_length first others
          rw [zero_add] at computed
          constructor
          · rintro ⟨-, exact_length⟩
            have equal := exact_length (by simp)
            have wrapped : ctype.total (setting :: rest) % (sizeMax + 1) < sizeMax + 1 :=
              Nat.mod_lt _ (Nat.succ_pos sizeMax)
            simp only [written, computed] at equal
            omega
          · intro fits
            refine ⟨splitOptions_writePass first others, fun _ => ?_⟩
            rw [written, computed, Nat.mod_eq_of_lt (Nat.lt_succ_of_le fits)]

def cLocale : Ctype where
  isspace := fun character => (9 ≤ character && character ≤ 13) || character == 32
  isalnum := fun character =>
    (48 ≤ character && character ≤ 57) || (65 ≤ character && character ≤ 90) ||
      (97 ≤ character && character ≤ 122)
  tolower := fun character =>
    if 65 ≤ character && character ≤ 90 then character + 32 else character
  blank := rfl
  alnum := fun character alnum => by
    simp only [Bool.or_eq_true, Bool.and_eq_true, decide_eq_true_eq, UInt8.le_iff_toNat_le] at alnum
    simp only [Bool.or_eq_false_iff, Bool.and_eq_false_iff, decide_eq_false_iff_not,
      beq_eq_false_iff_ne, ne_eq, ← UInt8.toNat_inj, UInt8.le_iff_toNat_le]
    simp only [UInt8.reduceToNat] at alnum ⊢
    omega
  punctuation := by simp [backslash]
  letter := rfl
  slash := rfl

/-- The setting `a` with a value that holds a space and a backslash, and the setting `c`. -/
def shortSettings : List Setting :=
  [⟨some ⟨[0x61], by decide⟩, some ⟨[0x62, 0x20, backslash], by decide⟩⟩,
    ⟨some ⟨[0x63], by decide⟩, some ⟨[0x64], by decide⟩⟩]

theorem startup_options_faithful_short :
    cLocale.Faithful shortSettings ⟨16, cLocale.writePass shortSettings⟩ :=
  (@startup_options_faithful cLocale 65535 shortSettings true _ rfl rfl).mpr (by decide)

def spaces (count : ℕ) : CString := ⟨List.replicate count 0x20, by simp⟩

/-- A setting of one letter whose value is a string of spaces. -/
def blankSetting (count : ℕ) (letter : UInt8) (nonzero : letter ≠ 0) : Setting :=
  ⟨some ⟨[letter], by simpa using nonzero.symm⟩, some (spaces count)⟩

/-- Eight settings with the same value. -/
def blankSettings (count : ℕ) : List Setting :=
  [blankSetting count 0x61 (by decide), blankSetting count 0x62 (by decide),
    blankSetting count 0x63 (by decide), blankSetting count 0x64 (by decide),
    blankSetting count 0x65 (by decide), blankSetting count 0x66 (by decide),
    blankSetting count 0x67 (by decide), blankSetting count 0x68 (by decide)]

theorem cost_blank (count : ℕ) (letter : UInt8) :
    cLocale.cost [letter] (spaces count).bytes = 5 + 2 * count := by
  have space : cLocale.escaped 0x20 = true := by decide
  rw [cost, spaces, List.length_replicate, List.countP_replicate, if_pos space,
    List.length_singleton]
  omega

theorem lengthPass_blank {count sizeMax length : ℕ} {letter : UInt8} (nonzero : letter ≠ 0)
    (alnum : cLocale.isalnum letter = true) (room : length + count + 6 ≤ sizeMax)
    (rest : List Setting) :
    cLocale.lengthPass sizeMax length (blankSetting count letter nonzero :: rest) =
      cLocale.lengthPass sizeMax ((length + (5 + 2 * count)) % (sizeMax + 1)) rest := by
  have valid : cLocale.nameValid [letter] = true := by
    simp [nameValid, nameCharacter, alnum]
  have size : (spaces count).bytes.length = count := List.length_replicate
  simp only [blankSetting, lengthPass, valid, Bool.not_true, Bool.false_eq_true, if_false,
    cost_blank, size, List.length_singleton]
  rw [if_neg]
  rw [Int.emod_eq_of_lt (by omega) (by omega)]
  omega

theorem total_blank (count : ℕ) : cLocale.total (blankSettings count) = 40 + 16 * count := by
  simp only [total, blankSettings, List.map_cons, List.map_nil, settingCost, blankSetting,
    cost_blank, List.sum_cons, List.sum_nil]
  omega

/-- The seven first settings pass, and the last one wraps the length. -/
theorem lengthPass_blanks {count sizeMax : ℕ} (room : 41 + 15 * count ≤ sizeMax)
    (wraps : sizeMax < 40 + 16 * count) :
    cLocale.lengthPass sizeMax 0 (blankSettings count) =
      .ok ((40 + 16 * count) % (sizeMax + 1)) := by
  rw [blankSettings, lengthPass_blank _ rfl (by omega), Nat.mod_eq_of_lt (by omega),
    lengthPass_blank _ rfl (by omega), Nat.mod_eq_of_lt (by omega),
    lengthPass_blank _ rfl (by omega), Nat.mod_eq_of_lt (by omega),
    lengthPass_blank _ rfl (by omega), Nat.mod_eq_of_lt (by omega),
    lengthPass_blank _ rfl (by omega), Nat.mod_eq_of_lt (by omega),
    lengthPass_blank _ rfl (by omega), Nat.mod_eq_of_lt (by omega),
    lengthPass_blank _ rfl (by omega), Nat.mod_eq_of_lt (by omega),
    lengthPass_blank _ rfl (by omega), lengthPass]
  congr 2
  omega

/-- A length that wraps is not the one of the string. -/
theorem unfaithful_blanks {count sizeMax : ℕ} (room : 41 + 15 * count ≤ sizeMax)
    (wraps : sizeMax < 40 + 16 * count) :
    ∃ options, cLocale.buildStartupOptions sizeMax (blankSettings count) true = .ok options ∧
      ¬cLocale.Faithful (blankSettings count) options := by
  refine ⟨⟨(40 + 16 * count) % (sizeMax + 1), cLocale.writePass (blankSettings count)⟩, ?_,
    fun faithful => ?_⟩
  · rw [buildStartupOptions, if_neg (by simp [blankSettings]), lengthPass_blanks room wraps]
    rfl
  · have accepted := settingsAreValid_accepted
      (show cLocale.settingsAreValid [] (blankSettings count) = true from rfl)
    have written := @writePass_length cLocale _ _ (accepted _ (List.mem_cons_self ..))
      (fun next member => accepted next (List.mem_cons_of_mem _ member))
    have equal : (cLocale.writePass (blankSettings count)).length + 1 =
        (40 + 16 * count) % (sizeMax + 1) := faithful.2 (by simp [blankSettings])
    have sum := total_blank count
    have small : (40 + 16 * count) % (sizeMax + 1) < sizeMax + 1 := Nat.mod_lt _ (by omega)
    rw [← equal] at small
    rw [← sum, blankSettings, ← written] at wraps
    rw [blankSettings] at small
    omega

/-- With sizes of 32 bits, eight settings that share a value of 256 MiB of spaces get a string of
which only the first bytes fit. -/
theorem startup_options_overflow :
    cLocale.settingsAreValid [] (blankSettings 268435456) = true ∧
      ∃ options,
        cLocale.buildStartupOptions 4294967295 (blankSettings 268435456) true = .ok options ∧
        ¬cLocale.Faithful (blankSettings 268435456) options :=
  ⟨rfl, unfaithful_blanks (by norm_num) (by norm_num)⟩

end Ctype
end Postgamma.Embedded
