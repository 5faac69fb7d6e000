import Mathlib
import Postgamma.Build.CatalogJson

/-!
# The catalog read back

What the parser of the catalog makes of a rendering of records, and what `json.loads` makes of the
encoded catalog.
-/

namespace Postgamma
namespace Build

open Python (Str lit)
open Python.JsonText

variable {φ : Type} {floats : Floats φ}

/-- A value up to the order of the entries of its objects. -/
inductive Same : JsonValue φ → JsonValue φ → Prop
  | null : Same .null .null
  | bool (value : Bool) : Same (.bool value) (.bool value)
  | int (value : ℤ) : Same (.int value) (.int value)
  | float (value : φ) : Same (.float value) (.float value)
  | str (value : Str) : Same (.str value) (.str value)
  | list {items others : List (JsonValue φ)} (all : List.Forall₂ Same items others) :
      Same (.list items) (.list others)
  | dict {entries aligned others : List (Str × JsonValue φ)}
      (keys : entries.map Prod.fst = aligned.map Prod.fst)
      (all : List.Forall₂ Same (entries.map Prod.snd) (aligned.map Prod.snd))
      (order : aligned.Perm others) : Same (.dict entries) (.dict others)

/-- The values that are read back: strings of code points without a leading surrogate directly in
front of a trailing one, integers of at most 4300 digits, objects whose keys differ. -/
inductive Writable : JsonValue φ → Prop
  | null : Writable .null
  | bool (value : Bool) : Writable (.bool value)
  | int (value : ℤ) (digits : (lit (toString value.natAbs)).length ≤ 4300) : Writable (.int value)
  | float (value : φ) : Writable (.float value)
  | str (value : Str) (points : Points value) (unpaired : Unpaired value) : Writable (.str value)
  | list (items : List (JsonValue φ)) (all : ∀ item ∈ items, Writable item) :
      Writable (.list items)
  | dict (entries : List (Str × JsonValue φ)) (distinct : (entries.map Prod.fst).Nodup)
      (keys : ∀ entry ∈ entries, Points entry.1 ∧ Unpaired entry.1)
      (all : ∀ entry ∈ entries, Writable entry.2) : Writable (.dict entries)

theorem setItem_fresh {α : Type} {entries : List (Str × α)} {entry : Str × α}
    (fresh : entry.1 ∉ entries.map Prod.fst) : setItem entries entry = entries ++ [entry] := by
  induction entries with
  | nil => rfl
  | cons other entries induction =>
      rw [List.map_cons, List.mem_cons, not_or] at fresh
      rw [setItem, if_neg (Ne.symm fresh.1), induction fresh.2, List.cons_append]

theorem foldl_setItem {α : Type} {pairs : List (Str × α)} (entries : List (Str × α))
    (distinct : ((entries ++ pairs).map Prod.fst).Nodup) :
    pairs.foldl setItem entries = entries ++ pairs := by
  induction pairs generalizing entries with
  | nil => rw [List.foldl_nil, List.append_nil]
  | cons pair pairs induction =>
      have fresh : pair.1 ∉ entries.map Prod.fst := by
        intro member
        rw [List.map_append, List.map_cons] at distinct
        exact (List.nodup_append.mp distinct).2.2 _ member _ List.mem_cons_self rfl
      have shift : entries ++ pair :: pairs = entries ++ [pair] ++ pairs := by simp
      rw [List.foldl_cons, setItem_fresh fresh, shift, induction _ (by rwa [← shift])]

theorem toDict_distinct {α : Type} {pairs : List (Str × α)}
    (distinct : (pairs.map Prod.fst).Nodup) : toDict pairs = pairs :=
  foldl_setItem [] distinct

theorem reads_list (level : ℕ) {items : List (Str × JsonValue φ)}
    (reads : ∀ item ∈ items, Reads floats item.1 item.2) :
    ∃ text, block level 91 93 (items.map fun item => (indentation (level + 1), item.1)) =
        some text ∧ Reads floats text (.list (items.map Prod.snd)) := by
  cases items with
  | nil =>
      refine ⟨[91, 93], rfl, tidy_of_visible (by decide) (by decide),
        ⟨91, [93], rfl, by decide, by decide, by decide⟩, ?_⟩
      intro depth rest enough _
      cases depth with
      | zero => simp at enough
      | succ depth => rfl
  | cons item items =>
      generalize whole : item :: items = all at reads ⊢
      have some_ : all ≠ [] := by
        rw [← whole]
        exact List.cons_ne_nil _ _
      have tidy : ∀ child ∈ all.map fun item => (indentation (level + 1), item.1),
          Tidy child.2 := by
        rintro _ member
        obtain ⟨item, inside, rfl⟩ := List.mem_map.mp member
        exact (reads item inside).tidy
      refine ⟨_, block_text (by simpa using some_) tidy,
        tidy_block (by norm_num) (by norm_num) ?_ tidy, ⟨91, _, rfl, by decide, by decide, by decide⟩, ?_⟩
      · rintro _ member
        obtain ⟨item, inside, rfl⟩ := List.mem_map.mp member
        exact printable_indentation _
      · intro depth rest enough _
        cases depth with
        | zero => simp at enough
        | succ depth =>
            simp only [List.length_cons, List.length_append] at enough
            have scanned := @scanItems_body _ floats (level + 1) all some_ reads depth level
              rest (by omega)
            have head : (skipBlank (body (all.map fun item => (indentation (level + 1), item.1)) ++
                10 :: (indentation level ++ 93 :: rest))).head? ≠ some 93 := by
              obtain ⟨point, more, first, ink, bracket, -⟩ :=
                (reads item (by rw [← whole]; exact List.mem_cons_self)).first
              rw [← whole]
              cases items with
              | nil =>
                  rw [List.map_cons, List.map_nil, body, List.append_assoc, skipBlank_indentation,
                    first, List.cons_append, skipBlank_ink ink]
                  simpa using bracket
              | cons next items =>
                  rw [List.map_cons, List.map_cons, body, List.append_assoc, skipBlank_indentation,
                    List.append_assoc, first, List.cons_append, skipBlank_ink ink]
                  simpa using bracket
            simp only [List.cons_append, List.append_assoc, List.nil_append]
            rw [scanOnce, if_neg (by decide), if_neg (by decide), if_pos rfl, skipBlank_newline]
            dsimp only
            rw [if_neg head, scanned]
            rfl

theorem reads_dict (level : ℕ) {entries : List (Entry φ)}
    (distinct : (entries.map Entry.key).Nodup) (reads : ∀ entry ∈ entries, entry.Reads floats) :
    ∃ text, block level 123 125 (entries.map (Entry.child (level + 1))) = some text ∧
      Reads floats text (.dict (entries.map fun entry => (entry.key, entry.value))) := by
  by_cases none : entries = []
  · subst none
    refine ⟨[123, 125], rfl, tidy_of_visible (by decide) (by decide),
      ⟨123, [125], rfl, by decide, by decide, by decide⟩, ?_⟩
    intro depth rest enough _
    cases depth with
    | zero => simp at enough
    | succ depth => rfl
  · have tidy : ∀ child ∈ entries.map (Entry.child (level + 1)), Tidy child.2 := by
      rintro _ member
      obtain ⟨entry, inside, rfl⟩ := List.mem_map.mp member
      exact (reads entry inside).value.tidy
    refine ⟨_, block_text (by simpa using none) tidy,
      tidy_block (by norm_num) (by norm_num) ?_ tidy, ⟨123, _, rfl, by decide, by decide, by decide⟩, ?_⟩
    · rintro _ member
      obtain ⟨entry, inside, rfl⟩ := List.mem_map.mp member
      exact printable_entryFront _ _
    · intro depth rest enough _
      cases depth with
      | zero => simp at enough
      | succ depth =>
          simp only [List.length_cons, List.length_append] at enough
          obtain ⟨text, opened, scanned⟩ := @scanMembers_body _ floats (level + 1) entries none
            reads depth level rest (by omega)
          have keys : ((entries.map fun entry => (entry.key, entry.value)).map Prod.fst).Nodup := by
            rw [List.map_map]
            exact distinct
          simp only [List.cons_append, List.append_assoc, List.nil_append]
          rw [scanOnce, if_neg (by decide), if_pos rfl, skipBlank_newline, opened]
          dsimp only
          rw [if_neg (by decide), if_pos rfl, scanned, Option.map_some, toDict_distinct keys]

/-- A value is encoded to a text that is read as the same value. -/
def Encodes (floats : Floats φ) (level : ℕ) (value : JsonValue φ) : Prop :=
  ∃ text back, encodeCatalogJson floats level value = some text ∧ Reads floats text back ∧
    Same value back

theorem encodeItems_reads {level : ℕ} {items : List (JsonValue φ)}
    (each : ∀ item ∈ items, Encodes floats level item) :
    ∃ pairs : List (Str × JsonValue φ),
      encodeItems floats level items = some (pairs.map Prod.fst) ∧
      (∀ pair ∈ pairs, Reads floats pair.1 pair.2) ∧
      List.Forall₂ Same items (pairs.map Prod.snd) := by
  induction items with
  | nil =>
      refine ⟨[], ?_, by simp, .nil⟩
      rw [encodeItems]
      rfl
  | cons item items induction =>
      obtain ⟨text, back, encoded, reads, same⟩ := each item List.mem_cons_self
      obtain ⟨pairs, texts, all, rest⟩ := induction fun other member =>
        each other (List.mem_cons_of_mem _ member)
      refine ⟨(text, back) :: pairs, ?_, List.forall_mem_cons.mpr ⟨reads, all⟩, .cons same rest⟩
      rw [encodeItems, encoded, texts]
      rfl

theorem encodeEntries_reads {level : ℕ} {entries : List (Str × JsonValue φ)}
    (keys : ∀ entry ∈ entries, Points entry.1 ∧ Unpaired entry.1)
    (each : ∀ entry ∈ entries, Encodes floats level entry.2) :
    ∃ read : List (Entry φ),
      encodeEntries floats level entries = some (read.map fun entry => (entry.key, entry.text)) ∧
      (∀ entry ∈ read, entry.Reads floats) ∧ entries.map Prod.fst = read.map Entry.key ∧
      List.Forall₂ Same (entries.map Prod.snd) (read.map Entry.value) := by
  induction entries with
  | nil =>
      refine ⟨[], ?_, by simp, rfl, .nil⟩
      rw [encodeEntries]
      rfl
  | cons entry entries induction =>
      obtain ⟨key, value⟩ := entry
      obtain ⟨text, back, encoded, reads, same⟩ := each (key, value) List.mem_cons_self
      obtain ⟨points, unpaired⟩ := keys (key, value) List.mem_cons_self
      obtain ⟨read, texts, all, names, rest⟩ := induction
        (fun other member => keys other (List.mem_cons_of_mem _ member))
        fun other member => each other (List.mem_cons_of_mem _ member)
      refine ⟨{ key := key, text := text, value := back } :: read, ?_,
        List.forall_mem_cons.mpr ⟨⟨points, unpaired, reads⟩, all⟩, ?_, .cons same rest⟩
      · rw [encodeEntries, encoded, texts]
        rfl
      · rw [List.map_cons, List.map_cons, names]

theorem encodeCatalogJson_int (level : ℕ) (value : ℤ) :
    encodeCatalogJson floats level (.int value) = dumpInt value := by
  rw [encodeCatalogJson]

theorem encodeCatalogJson_str (level : ℕ) (value : Str) :
    encodeCatalogJson floats level (.str value) = some (dumpString value) := by
  rw [encodeCatalogJson]

/-- Every writable value is encoded to a text that is read as the same value. -/
theorem encode_reads (faithful : floats.Faithful) {value : JsonValue φ}
    (writable : Writable value) : ∀ level, Encodes floats level value := by
  induction writable with
  | null => exact fun _ => ⟨_, _, by rw [encodeCatalogJson], reads_null, .null⟩
  | bool value => exact fun _ => ⟨_, _, by rw [encodeCatalogJson], reads_bool value, .bool value⟩
  | int value digits =>
      intro level
      obtain ⟨text, written⟩ : ∃ text, dumpInt value = some text :=
        ⟨_, if_neg (Nat.not_lt.mpr digits)⟩
      exact ⟨text, _, (encodeCatalogJson_int level value).trans written, reads_int written,
        .int value⟩
  | float value =>
      exact fun _ => ⟨_, _, by rw [encodeCatalogJson], reads_float faithful value, .float value⟩
  | str value points unpaired =>
      exact fun level => ⟨_, _, encodeCatalogJson_str level value, reads_str points unpaired,
        .str value⟩
  | list items _ induction =>
      intro level
      obtain ⟨pairs, texts, all, same⟩ := encodeItems_reads fun item member =>
        induction item member (level + 1)
      obtain ⟨text, written, reads⟩ := reads_list level all
      refine ⟨text, _, ?_, reads, .list same⟩
      rw [encodeCatalogJson, texts]
      simp only [Option.bind_eq_bind, Option.bind_some, List.map_map]
      exact written
  | dict entries distinct keys _ induction =>
      intro level
      obtain ⟨read, texts, all, names, same⟩ := encodeEntries_reads keys fun entry member =>
        induction entry member (level + 1)
      have keyed : (read.map fun entry => (entry.key, entry.value)).map Prod.fst =
          read.map Entry.key := List.map_map
      -- the entries in the order of the text
      have sorted := List.perm_insertionSort (fun first second : Entry φ => first.key ≤ second.key)
        read
      obtain ⟨text, written, reads⟩ := reads_dict level
        ((sorted.map Entry.key).nodup_iff.mpr (names ▸ distinct))
        fun entry member => all entry (sorted.mem_iff.mp member)
      refine ⟨text, _, ?_, reads,
        .dict (keyed.trans names.symm).symm ?_
          (sorted.symm.map fun entry => (entry.key, entry.value))⟩
      · have order := List.map_insertionSort
          (fun first second : Entry φ => first.key ≤ second.key)
          (fun first second : Str × Str => first.1 ≤ second.1)
          (fun entry : Entry φ => (entry.key, entry.text)) read (fun _ _ _ _ => Iff.rfl)
        rw [encodeCatalogJson, texts]
        simp only [Option.bind_eq_bind, Option.bind_some]
        rw [← order, List.map_map]
        exact written
      · rw [List.map_map]
        exact same

theorem loads_read {text : Str} {back : JsonValue φ} (reads : Reads floats text back) :
    loads floats text = some back := by
  have blank := reads.skipBlank []
  have scanned := reads.scan (2 * text.length + 1) [] (by omega) (by simp [ValueEnd])
  rw [List.append_nil] at blank scanned
  obtain ⟨point, rest, same, -, -, mark⟩ := reads.first
  rw [loads, if_neg (by simpa [same] using mark), blank, scanned]
  rfl

/-- Every rendering of records is read back with the lines of the records, the parser ends on every
text, and every writable value is encoded to a text from which `json.loads` gives it back. -/
theorem catalog_read_back (letters : Letters) {φ : Type} (floats : Floats φ)
    (faithful : floats.Faithful) :
    (∀ records text, CatalogDataParser.Rendered letters records text →
      CatalogDataParser.parse letters text = .ok records) ∧
    (∀ text, CatalogDataParser.parse letters text ≠ .error .exhausted) ∧
    ∀ value, Writable value → ∃ text back, encodeCatalogJson floats 0 value = some text ∧
      loads floats text = some back ∧ Same value back := by
  refine ⟨fun _ _ => CatalogDataParser.parse_rendered, CatalogDataParser.parse_ends letters, ?_⟩
  intro value writable
  obtain ⟨text, back, encoded, reads, same⟩ := encode_reads faithful writable 0
  exact ⟨text, back, encoded, loads_read reads, same⟩

/-- Zero and a half. -/
def halves : Floats Bool where
  repr half := if half then lit "0.5" else lit "0.0"
  float text := text == lit "0.5"
  constant _ := false

theorem halves_faithful : halves.Faithful where
  numeral := by
    intro half
    cases half with
    | false =>
        exact ⟨[], [48], [], [46, 48], [], rfl, .inl rfl, ⟨48, rfl, rfl, fun _ => rfl⟩, by simp,
          .inr ⟨[48], rfl, by simp, by simp [isDigit]⟩, .inl rfl, .inl (by simp)⟩
    | true =>
        exact ⟨[], [48], [], [46, 53], [], rfl, .inl rfl, ⟨48, rfl, rfl, fun _ => rfl⟩, by simp,
          .inr ⟨[53], rfl, by simp, by simp [isDigit]⟩, .inl rfl, .inl (by simp)⟩
  back := by
    intro half
    cases half with
    | false => rfl
    | true => rfl

def asciiLetters : Letters where
  isAlpha _ := false
  isAlnum _ := false

theorem catalog_read_back_ascii :
    CatalogDataParser.parse asciiLetters (lit "[\n\x7ba=>'x\\y\\''\x7d]#") =
      .ok [([([97], [120, 92, 121, 39])], 2)] ∧
    ∃ text back,
      encodeCatalogJson halves 0 (.dict [([98], .list [.null, .float true]), ([97], .int 7)]) =
        some text ∧
      loads halves text = some back ∧
      Same (.dict [([98], .list [.null, .float true]), ([97], .int 7)]) back := by
  have rendered : CatalogDataParser.Rendered asciiLetters [([([97], [120, 92, 121, 39])], 2)]
      (lit "[\n\x7ba=>'x\\y\\''\x7d]#") := by
    have quoted : CatalogDataParser.Quoted [120, 92, 121, 39] [120, 92, 121, 92, 39] :=
      .plain (by norm_num) (by norm_num) (.alone (by norm_num) (by norm_num)
        (.escaped (.inr rfl) .nil))
    have field : CatalogDataParser.RenderedField asciiLetters ([97], [120, 92, 121, 39])
        [97, 61, 62, 39, 120, 92, 121, 92, 39, 39] :=
      .intro ⟨97, [], rfl, rfl, by simp⟩ quoted .nil .nil .nil
    have blank : CatalogDataParser.Ignored [10] := .space rfl .nil
    have comment : CatalogDataParser.IgnoredAtEnd ([] ++ 35 :: []) := .line .nil (by simp)
    exact .intro .nil (.last (by simp) (.last field .nil) blank .nil) comment
  have writable : Writable
      (.dict [([98], .list [.null, .float true]), ([97], .int 7)] : JsonValue Bool) := by
    refine .dict _ (by simp) ?_ ?_
    · simp [Points, Unpaired]
    · intro entry member
      have items : ∀ item ∈ [JsonValue.null, JsonValue.float true], Writable item := by
        simp [Writable.null, Writable.float]
      have digit : Writable (.int 7 : JsonValue Bool) := .int 7 (by decide)
      have array : Writable (.list [JsonValue.null, JsonValue.float true]) := .list _ items
      simp only [List.mem_cons, List.not_mem_nil, or_false] at member
      obtain rfl | rfl := member
      · exact array
      · exact digit
  exact ⟨(catalog_read_back asciiLetters halves halves_faithful).1 _ _ rendered,
    (catalog_read_back asciiLetters halves halves_faithful).2.2 _ writable⟩

theorem length_decimal {limit number : ℕ} (positive : 0 < limit) (long : 10 ^ limit ≤ number) :
    limit < (lit (toString number)).length := by
  have length : (lit (toString number)).length = number.repr.length := by
    rw [lit, List.length_map, String.length_toList]
    rfl
  rw [length]
  refine Nat.lt_of_not_le fun short => ?_
  exact Nat.not_lt.mpr long ((Nat.length_repr_le_iff positive).mp short)

theorem dumpInt_long {digits : ℕ} (long : 4300 ≤ digits) : dumpInt (10 ^ digits) = none := by
  have size : ((10 : ℤ) ^ digits).natAbs = 10 ^ digits := by
    rw [Int.natAbs_pow]
    rfl
  refine if_pos ?_
  rw [size]
  exact long.trans_lt (length_decimal (by omega) le_rfl)

/-- A pair of surrogates comes back as one character, and a longer integer is refused. -/
theorem surrogates_joined :
    encodeCatalogJson halves 0 (.str [0xD83D, 0xDE00]) = some (dumpString [0xD83D, 0xDE00]) ∧
    loads halves (dumpString [0xD83D, 0xDE00]) = some (.str [0x1F600]) ∧
    ¬Same (.str [0xD83D, 0xDE00] : JsonValue Bool) (.str [0x1F600]) ∧
    encodeCatalogJson halves 0 (.int (10 ^ 4300)) = none := by
  refine ⟨encodeCatalogJson_str 0 _, rfl, ?_,
    (encodeCatalogJson_int 0 _).trans (dumpInt_long le_rfl)⟩
  intro same
  cases same

end Build
end Postgamma
