import ErrorTaxonomy.Loader
import Mathlib.Data.List.Lex
import Mathlib.Data.String.Basic
import Mathlib.Tactic.SplitIfs

/-!
# The order of names

Names are compared character by character.  That is the order of the bytes in which
they are written: a character that takes fewer bytes has a smaller first byte, and two
characters that take as many are told apart by the first of their digits that differs.
Sorting distinct names puts them into strictly ascending order of their bytes, whatever
order they came in.
-/

namespace ErrorTaxonomy

/-! ## Bytes -/

/-- The bytes in which a name is written. -/
def nameBytes (name : String) : List UInt8 :=
  name.toUTF8.data.toList

theorem nameBytes_eq (name : String) :
    nameBytes name = name.toList.flatMap String.utf8EncodeChar := by
  rw [nameBytes, String.toUTF8, ← String.utf8Encode_toList, List.utf8Encode,
    List.data_toByteArray]

theorem ofNat_cons_lt {m n : Nat} {xs ys : List UInt8} (hn : n < 256) (hle : m ≤ n)
    (hrest : m = n → xs < ys) : UInt8.ofNat m :: xs < UInt8.ofNat n :: ys := by
  rw [List.cons_lt_cons_iff]
  rcases Nat.lt_or_eq_of_le hle with hlt | rfl
  · left
    rw [UInt8.lt_iff_toNat_lt, UInt8.toNat_ofNat', UInt8.toNat_ofNat']
    omega
  · exact .inr ⟨rfl, hrest rfl⟩

/-- The order of two characters is decided within their own bytes. -/
theorem utf8EncodeChar_append_lt {c d : Char} (hlt : c < d) (xs ys : List UInt8) :
    String.utf8EncodeChar c ++ xs < String.utf8EncodeChar d ++ ys := by
  have hval : c.val.toNat < d.val.toNat := hlt
  have hmax : d.val.toNat < 1114112 := by
    have hvalid := d.valid
    simp only [UInt32.isValidChar, Nat.isValidChar] at hvalid
    omega
  simp only [String.utf8EncodeChar]
  split_ifs
  -- the smaller character does not take more bytes
  any_goals omega
  all_goals
    simp only [List.cons_append, List.nil_append]
    repeat refine ofNat_cons_lt (by omega) (by omega) fun _ => ?_
    omega

theorem flatMap_utf8EncodeChar_lt {cs ds : List Char} (hlt : cs < ds) :
    cs.flatMap String.utf8EncodeChar < ds.flatMap String.utf8EncodeChar := by
  have hlex : List.Lex (· < ·) cs ds := (List.lt_iff_lex_lt cs ds).mp hlt
  clear hlt
  induction hlex with
  | @nil d ds =>
      obtain ⟨byte, bytes, hbytes⟩ :=
        List.exists_cons_of_ne_nil (l := String.utf8EncodeChar d) String.utf8EncodeChar_ne_nil
      rw [List.flatMap_nil, List.flatMap_cons, hbytes]
      exact List.nil_lt_cons _ _
  | rel hlt => exact utf8EncodeChar_append_lt hlt _ _
  | cons _ ih =>
      rw [List.flatMap_cons, List.flatMap_cons]
      exact List.append_left_lt ih

theorem nameBytes_lt_iff {a b : String} : nameBytes a < nameBytes b ↔ a < b := by
  have hmono : ∀ {a b : String}, a < b → nameBytes a < nameBytes b := by
    intro a b hlt
    rw [nameBytes_eq, nameBytes_eq]
    exact flatMap_utf8EncodeChar_lt (String.lt_iff_toList_lt.mp hlt)
  refine ⟨fun hlt => ?_, hmono⟩
  rcases lt_trichotomy a b with hless | rfl | hgreater
  · exact hless
  · exact absurd hlt (List.lt_irrefl _)
  · exact absurd hlt (List.lt_asymm (hmono hgreater))

/-! ## Sorting -/

theorem nameLe_iff {a b : String} : nameLe a b = true ↔ a ≤ b := by
  rw [nameLe, decide_eq_true_iff]

theorem pairwise_mergeSort_nameLe (names : List String) :
    (names.mergeSort nameLe).Pairwise (· ≤ ·) := by
  have hsorted : (names.mergeSort nameLe).Pairwise fun a b => nameLe a b = true := by
    apply List.pairwise_mergeSort
    · intro a b c
      simp only [nameLe_iff]
      exact String.le_trans
    · intro a b
      simp only [Bool.or_eq_true, nameLe_iff]
      exact String.le_total a b
  exact hsorted.imp nameLe_iff.mp

theorem mergeSort_nameLe_eq {names others : List String} (hperm : names.Perm others) :
    names.mergeSort nameLe = others.mergeSort nameLe := by
  have hsorted : (names.mergeSort nameLe).Perm (others.mergeSort nameLe) :=
    (List.mergeSort_perm names nameLe).trans
      (hperm.trans (List.mergeSort_perm others nameLe).symm)
  apply hsorted.eq_of_pairwise ?_ (pairwise_mergeSort_nameLe names)
    (pairwise_mergeSort_nameLe others)
  intro a b _ _ hle hge
  exact String.le_antisymm hle hge

/-- Distinct names are sorted into strictly ascending order of their bytes. -/
theorem pairwise_nameBytes_mergeSort {names : List String} (hnodup : names.Nodup) :
    (names.mergeSort nameLe).Pairwise fun a b => nameBytes a < nameBytes b := by
  have hdistinct : (names.mergeSort nameLe).Pairwise (· ≠ ·) :=
    (List.mergeSort_perm names nameLe).nodup_iff.mpr hnodup
  refine (pairwise_mergeSort_nameLe names).imp₂ ?_ hdistinct
  intro a b hle hne
  rw [nameBytes_lt_iff]
  exact lt_of_le_of_ne hle hne

end ErrorTaxonomy
