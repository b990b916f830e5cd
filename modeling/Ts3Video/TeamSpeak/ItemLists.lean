import Mathlib.Data.List.Forall2
import Mathlib.Data.List.Nodup
import Ts3Video.TeamSpeak.QueryConsole

/-!
# Reading back lists of items

A reply of the query console lists items, which are separated by pipes; the keys and values of an item are
separated by spaces. Reading such a line recovers every value of every item.
-/

namespace Ts3Video.TS3ServerQuery

/-- A key with its value, and whether an equals sign follows the key if the value is empty. Neither of both
contains a separator. -/
structure Field where
  key : String
  value : String
  bare : Bool
  key_ne : key ≠ ""
  key_plain : ∀ c ∈ key.toList, c ≠ ' ' ∧ c ≠ '|' ∧ c ≠ '='
  value_plain : ∀ c ∈ value.toList, c ≠ ' ' ∧ c ≠ '|'

/-- The fields of an item in some order; each key has one value. -/
structure FieldList where
  fields : List Field
  ne_nil : fields ≠ []
  nodup : (fields.map Field.key).Nodup

/-- The word of a field. -/
def Field.word (field : Field) : List Char :=
  if field.value = "" ∧ field.bare then field.key.toList
  else field.key.toList ++ '=' :: field.value.toList

/-- The text of an item. -/
def FieldList.text (item : FieldList) : List Char := [' '].intercalate (item.fields.map Field.word)

/-- The line of a list of items. -/
def renderItemList (items : List FieldList) : String :=
  String.ofList (['|'].intercalate (items.map FieldList.text))

/-- The key and value of a field. -/
def Field.entry (field : Field) : String × String := (field.key, field.value)

/-- An item has the given values of its keys, and no others. -/
def Item.IsMap (obj : Item) (entries : List (String × String)) : Prop :=
  ∀ key value, obj.lookup key = some value ↔ (key, value) ∈ entries

/-- The characters of a word are an equals sign and those of the key and of the value. -/
theorem Field.mem_word {field : Field} {c : Char} (h : c ∈ field.word) :
    c ∈ field.key.toList ∨ c = '=' ∨ c ∈ field.value.toList := by
  rw [word] at h
  split at h
  · exact .inl h
  · rwa [List.mem_append, List.mem_cons] at h

/-- Words contain no separators of words and of items. -/
theorem Field.word_plain {field : Field} {c : Char} (h : c ∈ field.word) : c ≠ ' ' ∧ c ≠ '|' := by
  obtain hkey | rfl | hvalue := mem_word h
  · exact ⟨(field.key_plain c hkey).1, (field.key_plain c hkey).2.1⟩
  · decide
  · exact field.value_plain c hvalue

/-- A word without an equals sign stores its key alone. -/
theorem parseKeyValue_key (obj : Item) {key : List Char} (h : '=' ∉ key) :
    parseKeyValue obj key = (String.ofList key, "") :: obj := by
  rw [parseKeyValue, EscapeCode.splitFirst_of_not_mem h]

/-- A key, the first equals sign and a value are stored. -/
theorem parseKeyValue_assign (obj : Item) {key : List Char} (h : '=' ∉ key) (hne : key ≠ [])
    (value : List Char) :
    parseKeyValue obj (key ++ '=' :: value) = (String.ofList key, String.ofList value) :: obj := by
  rw [parseKeyValue, EscapeCode.splitFirst_append h]
  cases key with
  | nil => exact absurd rfl hne
  | cons c key => rfl

/-- The word of a field stores its value. -/
theorem parseKeyValue_word (obj : Item) (field : Field) :
    parseKeyValue obj field.word = field.entry :: obj := by
  have hkey : '=' ∉ field.key.toList := fun h => (field.key_plain '=' h).2.2 rfl
  have hne : field.key.toList ≠ [] := fun h => field.key_ne (String.toList_eq_nil_iff.mp h)
  rw [Field.word, Field.entry]
  split
  · next hbare => rw [parseKeyValue_key obj hkey, hbare.1, String.ofList_toList]
  · rw [parseKeyValue_assign obj hkey hne, String.ofList_toList, String.ofList_toList]

/-- The words of an item store its fields, the last one first. -/
theorem foldl_parseKeyValue (fields : List Field) (obj : Item) :
    (fields.map Field.word).foldl parseKeyValue obj = (fields.map Field.entry).reverse ++ obj := by
  induction fields generalizing obj with
  | nil => rfl
  | cons field fields ih =>
    rw [List.map_cons, List.foldl_cons, parseKeyValue_word, ih, List.map_cons, List.reverse_cons,
      List.append_assoc]
    rfl

/-- If each key occurs once, the stored values are found by their keys. -/
theorem isMap_of_nodup {obj : Item} (h : (obj.map Prod.fst).Nodup) : obj.IsMap obj := by
  intro key value
  induction obj with
  | nil => exact iff_of_false (fun hnone => absurd hnone.symm (Option.some_ne_none value)) List.not_mem_nil
  | cons first obj ih =>
    obtain ⟨key', value'⟩ := first
    rw [List.map_cons, List.nodup_cons] at h
    rw [List.mem_cons, Prod.mk.injEq]
    by_cases hkey : key = key'
    · subst hkey
      have hother : (key, value) ∉ obj := fun hmem => h.1 (List.mem_map.mpr ⟨_, hmem, rfl⟩)
      rw [List.lookup_cons_self, Option.some_inj, eq_comm]
      exact ⟨fun hvalue => .inl ⟨rfl, hvalue⟩, fun hmem => (hmem.resolve_right hother).2⟩
    · rw [List.lookup_cons, beq_false_of_ne hkey, ih h.2]
      exact ⟨.inr, fun hmem => hmem.resolve_left fun hsame => hkey hsame.1⟩

/-- Reading the text of an item finds the values of its fields. -/
theorem parseItem_text (item : FieldList) :
    (parseItem item.text).IsMap (item.fields.map Field.entry) := by
  have hplain : ∀ word ∈ item.fields.map Field.word, ' ' ∉ word := by
    intro word hword hspace
    obtain ⟨field, -, rfl⟩ := List.mem_map.mp hword
    exact (Field.word_plain hspace).1 rfl
  have hkeys : ((item.fields.map Field.entry).reverse.map Prod.fst).Nodup := by
    rw [List.map_reverse, List.nodup_reverse, List.map_map]
    exact item.nodup
  rw [parseItem, FieldList.text, List.splitOn_intercalate ' ' hplain (by simpa using item.ne_nil),
    foldl_parseKeyValue, List.append_nil]
  intro key value
  rw [isMap_of_nodup hkeys, List.mem_reverse]

/-- A pipe does not occur in the text of an item. -/
theorem FieldList.pipe_not_mem_text (item : FieldList) : '|' ∉ item.text := by
  intro h
  obtain hspace | ⟨word, hword, hpipe⟩ := EscapeCode.mem_intercalate h
  · exact absurd hspace (by decide)
  · obtain ⟨field, -, rfl⟩ := List.mem_map.mp hword
    exact (Field.word_plain hpipe).2 rfl

/-- Reading the line of a list of items recovers the items in their order, each with the values of its keys. -/
theorem parseItemList_renderItemList {items : List FieldList} (h : items ≠ []) :
    List.Forall₂ (fun obj item => obj.IsMap (item.fields.map Field.entry))
      (parseItemList (renderItemList items)) items := by
  have hplain : ∀ text ∈ items.map FieldList.text, '|' ∉ text := by
    intro text htext
    obtain ⟨item, -, rfl⟩ := List.mem_map.mp htext
    exact item.pipe_not_mem_text
  rw [parseItemList, renderItemList, String.toList_ofList,
    List.splitOn_intercalate '|' hplain (by simpa using h), List.map_map]
  rw [List.forall₂_map_left_iff, List.forall₂_same]
  exact fun item _ => parseItem_text item

/-- An item with an empty value and one whose value has an equals sign in it. -/
theorem parseItemList_renderItemList_two :
    let items : List FieldList :=
      [⟨[⟨"clid", "1", false, by decide, by simp, by simp⟩,
          ⟨"away", "", true, by decide, by simp, by simp⟩], by decide, by decide +kernel⟩,
        ⟨[⟨"uid", "a=", false, by decide, by simp, by simp⟩], by decide, by decide +kernel⟩]
    renderItemList items = "clid=1 away|uid=a=" ∧
      List.Forall₂ (fun obj item => obj.IsMap (item.fields.map Field.entry))
        (parseItemList (renderItemList items)) items :=
  ⟨by decide +kernel, parseItemList_renderItemList (List.cons_ne_nil _ _)⟩

end Ts3Video.TS3ServerQuery
