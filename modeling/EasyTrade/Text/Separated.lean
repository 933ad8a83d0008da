import EasyTrade.Text.Numbers
import Mathlib.Data.List.Forall2

/-!
# Separated items

Items of a text with a comma after each but the last one, and a stop after that. What an item's
reader needs to know of the written items, the reader of the whole list knows of the list: it takes
from the front of a longer text exactly what was written, and it can give the right values only if
every item is one that the item's reader can read.
-/

namespace EasyTrade.Text

variable {α β : Type}

/-- A text after its leading spaces. -/
def skipSpace (text : List Char) : List Char := text.dropWhile isSpace

theorem skipSpace_append {space : List Char} (spaces : ∀ c ∈ space, isSpace c = true)
    (text : List Char) : skipSpace (space ++ text) = skipSpace text :=
  List.dropWhile_append_of_pos spaces

theorem skipSpace_cons {c : Char} (other : isSpace c = false) (text : List Char) :
    skipSpace (c :: text) = c :: text := by
  rw [skipSpace, List.dropWhile_cons_of_neg (by simp [other])]

/-- Items with commas between them, up to a stop. -/
def readList (item : List Char → Option (β × List Char)) (stop : Char) :
    Nat → List Char → Option (List β × List Char)
  | 0, _ => none
  | n + 1, text => do
    let (value, text) ← item (skipSpace text)
    match skipSpace text with
    | [] => none
    | c :: text =>
      if c = ',' then do
        let (values, text) ← readList item stop n text
        return (value :: values, text)
      else if c = stop then some ([value], text)
      else none

/-- Items with commas and spaces between them, and spaces before the stop. -/
def writeList (space last : List Char) (write : α → List Char) (stop : Char) : List α → List Char
  | [] => [stop]
  | [a] => write a ++ (last ++ [stop])
  | a :: as => write a ++ (',' :: (space ++ writeList space last write stop as))

/-- Leading spaces do not matter. -/
theorem readList_append {space : List Char} (spaces : ∀ c ∈ space, isSpace c = true)
    (item : List Char → Option (β × List Char)) (stop : Char) (n : Nat) (text : List Char) :
    readList item stop n (space ++ text) = readList item stop n text := by
  cases n with
  | zero => rfl
  | succ n => rw [readList, readList, skipSpace_append spaces]

/-- At the stop the list ends. -/
theorem readList_stop {item : List Char → Option (β × List Char)} {stop : Char} (other : stop ≠ ',')
    (n : Nat) {text left rest : List Char} {b : β} (read : item (skipSpace text) = some (b, left))
    (ends : skipSpace left = stop :: rest) :
    readList item stop (n + 1) text = some ([b], rest) := by
  rw [readList, read]
  simp [ends, other]

/-- After a comma it goes on. -/
theorem readList_comma {item : List Char → Option (β × List Char)} {stop : Char} (n : Nat)
    {text left rest : List Char} {b : β} (read : item (skipSpace text) = some (b, left))
    (goes : skipSpace left = ',' :: rest) :
    readList item stop (n + 1) text =
      (readList item stop n rest).map fun (bs, rest) => (b :: bs, rest) := by
  rw [readList, read]
  simp only [Option.bind_eq_bind, Option.bind_some, goes, if_true]
  cases readList item stop n rest <;> rfl

/-- The first value is what the item's reader reads first. -/
theorem exists_cons_of_readList {item : List Char → Option (β × List Char)} {stop : Char} {n : Nat}
    {text rest : List Char} {bs : List β} (read : readList item stop n text = some (bs, rest)) :
    ∃ b left tail, item (skipSpace text) = some (b, left) ∧ bs = b :: tail := by
  cases n with
  | zero => cases read
  | succ n =>
    rcases here : item (skipSpace text) with _ | ⟨b, left⟩
    · rw [readList, here] at read
      cases read
    · refine ⟨b, left, bs.tail, rfl, ?_⟩
      rw [readList, here] at read
      simp only [Option.bind_eq_bind, Option.bind_some] at read
      split at read
      · cases read
      · split_ifs at read
        · obtain ⟨more, _, same⟩ := Option.bind_eq_some_iff.mp read
          obtain ⟨rfl, -⟩ := Prod.mk.inj (Option.some.inj same)
          rfl
        · obtain ⟨rfl, -⟩ := Prod.mk.inj (Option.some.inj read)
          rfl

/-- How items are written and read. `denotes` says which values are right for an item, and `good`
which items can be read. -/
structure Items (α β : Type) where
  item : List Char → Option (β × List Char)
  stop : Char
  space : List Char
  last : List Char
  write : α → List Char
  denotes : α → β → Prop
  good : α → Prop
  stop_ne_comma : stop ≠ ','
  stop_not_space : isSpace stop = false
  spaces : ∀ c ∈ space, isSpace c = true
  lasts : ∀ c ∈ last, isSpace c = true
  /-- A written item does not begin with a space. -/
  write_skip : ∀ a rest, skipSpace (write a ++ rest) = write a ++ rest
  /-- A good item is read, whatever comes after it in a list. -/
  read : ∀ a, good a → ∀ rest, rest.head? = some ',' ∨ rest.head? = (last ++ [stop]).head? →
    ∃ b, item (write a ++ rest) = some (b, rest) ∧ denotes a b
  /-- Only a good item is read as a right value, and nothing more with it. -/
  good_of_read : ∀ a rest, rest.head? = some ',' ∨ rest.head? = (last ++ [stop]).head? →
    ∀ b rest', item (write a ++ rest) = some (b, rest') → denotes a b → good a ∧ rest' = rest

namespace Items

variable (items : Items α β)

/-- The text of a list. -/
def text (as : List α) : List Char :=
  writeList items.space items.last items.write items.stop as

/-- A list is not longer than its text. -/
theorem length_le_text (as : List α) : as.length ≤ (items.text as).length := by
  rw [text]
  induction as with
  | nil => exact Nat.zero_le _
  | cons a as ih =>
    cases as with
    | nil =>
      simp only [writeList, List.length_append, List.length_cons, List.length_nil]
      omega
    | cons a' as =>
      rw [writeList]
      · simp only [List.length_append, List.length_cons] at ih ⊢
        omega
      · simp

/-- What comes after the last item. -/
theorem text_singleton (a : α) (rest : List Char) :
    items.text [a] ++ rest = items.write a ++ ((items.last ++ [items.stop]) ++ rest) := by
  rw [text, writeList, List.append_assoc]

/-- What comes after another item. -/
theorem text_cons_cons (a b : α) (as : List α) (rest : List Char) :
    items.text (a :: b :: as) ++ rest =
      items.write a ++ (',' :: (items.space ++ (items.text (b :: as) ++ rest))) := by
  rw [text, writeList, List.append_assoc, List.cons_append, List.append_assoc]
  · rfl
  · simp

/-- After the last item the stop is next. -/
theorem skipSpace_last (rest : List Char) :
    skipSpace ((items.last ++ [items.stop]) ++ rest) = items.stop :: rest := by
  rw [List.append_assoc, skipSpace_append items.lasts]
  exact skipSpace_cons items.stop_not_space rest

theorem head_last (rest : List Char) :
    ((items.last ++ [items.stop]) ++ rest).head? = (items.last ++ [items.stop]).head? :=
  List.head?_append_of_ne_nil _ (by simp)

/-- A list of good items is read back. -/
theorem readList_text {as : List α} (some_ : as ≠ []) (good : ∀ a ∈ as, items.good a) {n : Nat}
    (enough : as.length ≤ n) (rest : List Char) :
    ∃ bs, readList items.item items.stop n (items.text as ++ rest) = some (bs, rest) ∧
      List.Forall₂ items.denotes as bs := by
  induction as generalizing n with
  | nil => exact absurd rfl some_
  | cons a as ih =>
    obtain ⟨n, rfl⟩ := Nat.exists_eq_succ_of_ne_zero (Nat.ne_of_gt (Nat.lt_of_lt_of_le
      (Nat.succ_pos _) enough))
    obtain ⟨here, later⟩ := List.forall_mem_cons.mp good
    cases as with
    | nil =>
      obtain ⟨b, read, denotes⟩ := items.read a here _ (Or.inr (items.head_last rest))
      rw [text_singleton]
      rw [← items.write_skip] at read
      exact ⟨[b], readList_stop items.stop_ne_comma n read (items.skipSpace_last rest),
        .cons denotes .nil⟩
    | cons a' as =>
      obtain ⟨b, read, denotes⟩ := items.read a here
        (',' :: (items.space ++ (items.text (a' :: as) ++ rest))) (Or.inl rfl)
      obtain ⟨bs, reads, all⟩ := ih (List.cons_ne_nil _ _) later (Nat.le_of_succ_le_succ enough)
      rw [text_cons_cons]
      rw [← items.write_skip] at read
      refine ⟨b :: bs, ?_, .cons denotes all⟩
      rw [readList_comma n read (skipSpace_cons (by decide) _), readList_append items.spaces, reads]
      rfl

/-- A list is read as right values only if its items are good; what comes after it is left. -/
theorem good_of_readList {as more : List α} {bs after : List β} (some_ : as ≠ []) {n : Nat}
    {rest rest' : List Char}
    (read : readList items.item items.stop n (items.text as ++ rest) = some (bs, rest'))
    (denotes : List.Forall₂ items.denotes (as ++ more) (bs ++ after)) :
    (∀ a ∈ as, items.good a) ∧ rest' = rest ∧ List.Forall₂ items.denotes more after := by
  induction as generalizing n bs with
  | nil => exact absurd rfl some_
  | cons a as ih =>
    obtain ⟨n, rfl⟩ : ∃ m, n = m + 1 := by
      cases n with
      | zero => cases read
      | succ n => exact ⟨n, rfl⟩
    obtain ⟨b, left, tail, here, rfl⟩ := exists_cons_of_readList read
    obtain ⟨first, later⟩ := List.forall₂_cons.mp denotes
    cases as with
    | nil =>
      rw [text_singleton, items.write_skip] at here
      obtain ⟨good, rfl⟩ := items.good_of_read a _ (Or.inr (items.head_last rest)) b left here first
      rw [← items.write_skip] at here
      rw [text_singleton, readList_stop items.stop_ne_comma n here (items.skipSpace_last rest)] at read
      obtain ⟨same, rfl⟩ := Prod.mk.inj (Option.some.inj read)
      obtain rfl := (List.cons.inj same).2
      exact ⟨List.forall_mem_singleton.mpr good, rfl, later⟩
    | cons a' as =>
      rw [text_cons_cons, items.write_skip] at here
      obtain ⟨good, rfl⟩ := items.good_of_read a _ (Or.inl rfl) b left here first
      rw [← items.write_skip] at here
      rw [text_cons_cons, readList_comma n here (skipSpace_cons (by decide) _),
        readList_append items.spaces, Option.map_eq_some_iff] at read
      obtain ⟨⟨bs, rest₂⟩, reads, same⟩ := read
      obtain ⟨values, rfl⟩ := Prod.mk.inj same
      obtain rfl := (List.cons.inj values).2
      obtain ⟨goods, exact_, others⟩ := ih (List.cons_ne_nil _ _) reads later
      exact ⟨List.forall_mem_cons.mpr ⟨good, goods⟩, exact_, others⟩

end Items

end EasyTrade.Text
