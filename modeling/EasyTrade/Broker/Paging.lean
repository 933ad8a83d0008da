import EasyTrade.Broker.Listing
import EasyTrade.Store.Pages
import Mathlib.Data.List.Sort

/-!
# The pages of the trade list

The trades of an account are listed page by page. The offset of a page is a product
of two `int`s, which wraps: from `count * page = 2 ^ 31` on the rows that are skipped
are no longer those of the pages before.
-/

namespace EasyTrade.Broker

open EasyTrade.Store

variable {db : Database} {accountId : Int} {onlyOpen onlyLong : Bool} {negative : NegativeOffset}

/-! ## The order of the list -/

instance : Std.Total fun a b : Trade => a.listsBefore b = true where
  total a b := by
    unfold Trade.listsBefore
    rcases a.timestampClose with _ | x <;> rcases b.timestampClose with _ | y <;> simp <;> omega

instance : IsTrans Trade fun a b => a.listsBefore b = true where
  trans a b c := by
    unfold Trade.listsBefore
    rcases a.timestampClose with _ | x <;> rcases b.timestampClose with _ | y <;>
      rcases c.timestampClose with _ | z <;> simp <;> omega

/-- The listed trades are in the order of the list. -/
theorem pairwise_listedTrades (db : Database) (accountId : Int) (onlyOpen onlyLong : Bool) :
    (listedTrades db accountId onlyOpen onlyLong).Pairwise fun a b => a.listsBefore b = true :=
  List.pairwise_insertionSort _ _

/-- No trade is listed twice. -/
theorem nodup_listedTrades (unique : (db.trades.map Trade.id).Nodup) :
    (listedTrades db accountId onlyOpen onlyLong).Nodup := by
  have distinct : db.trades.Nodup := unique.of_map
  exact (List.perm_insertionSort _ _).nodup_iff.mpr (((distinct.filter _).filter _).filter _)

/-! ## Pages -/

/-- `TradeService.GetTradesOfAccount`; a product of two `int`s wraps. -/
def TradeService.getTradesOfAccount (negative : NegativeOffset) (db : Database) (accountId : Int)
    (count page : Int32) (onlyOpen onlyLong : Bool) : Option (List Trade) :=
  (offset negative (count * page).toInt (listedTrades db accountId onlyOpen onlyLong)).map
    (List.take count.toInt.toNat)

/-- The request is answered with the page that it asks for. -/
def Paged (negative : NegativeOffset) (db : Database) (accountId : Int) (count page : Int32)
    (onlyOpen onlyLong : Bool) : Prop :=
  TradeService.getTradesOfAccount negative db accountId count page onlyOpen onlyLong =
    some (Store.page count.toInt.toNat page.toInt.toNat
      (listedTrades db accountId onlyOpen onlyLong))

/-- The offset is an `int`, or what is skipped in place of it is the whole list too. -/
def Reaches (negative : NegativeOffset) (count page : Int32) (length : ℕ) : Prop :=
  count.toInt * page.toInt < 2 ^ 31 ∨
    (0 ≤ (count.toInt * page.toInt).bmod (2 ^ 32) ∨ negative = .ignored) ∧
      length ≤ ((count.toInt * page.toInt).bmod (2 ^ 32)).toNat

instance (negative : NegativeOffset) (count page : Int32) (length : ℕ) :
    Decidable (Reaches negative count page length) := inferInstanceAs (Decidable (_ ∨ _))

/-- The first page of the broker is the list the front end asks for. -/
theorem getTradesOfAccount_first (negative : NegativeOffset) (db : Database) (accountId : Int)
    (count : Int32) (onlyOpen onlyLong : Bool) :
    TradeService.getTradesOfAccount negative db accountId count 0 onlyOpen onlyLong =
      some (Broker.getTradesOfAccount db accountId count.toInt.toNat 0 onlyOpen onlyLong) := by
  simp [TradeService.getTradesOfAccount, Broker.getTradesOfAccount, offset]

/-- A request is answered with its page just where the offset reaches. -/
theorem paged_iff (unique : (db.trades.map Trade.id).Nodup) {count page : Int32}
    (some : 0 < count.toInt) (nonneg : 0 ≤ page.toInt) :
    Paged negative db accountId count page onlyOpen onlyLong ↔
      Reaches negative count page (listedTrades db accountId onlyOpen onlyLong).length := by
  have distinct : (listedTrades db accountId onlyOpen onlyLong).Nodup := nodup_listedTrades unique
  unfold Paged Reaches TradeService.getTradesOfAccount offset Store.page
  generalize listedTrades db accountId onlyOpen onlyLong = rows at distinct ⊢
  have exact : count.toInt.toNat * page.toInt.toNat = (count.toInt * page.toInt).toNat := by
    rw [Int.toNat_mul (by omega) nonneg]
  have size : 0 < count.toInt.toNat := by omega
  have product : 0 ≤ count.toInt * page.toInt := Int.mul_nonneg (by omega) nonneg
  rw [exact, Int32.toInt_mul]
  generalize count.toInt * page.toInt = skipped at product ⊢
  have below : skipped.bmod (2 ^ 32) < 2 ^ 31 := Int.bmod_lt (by decide)
  by_cases inRange : skipped < 2 ^ 31
  · have same : skipped.bmod (2 ^ 32) = skipped := Int.bmod_eq_of_le (by omega) (by omega)
    rw [same, if_neg (by omega)]
    exact iff_of_true rfl (Or.inl inRange)
  · have before : (skipped.bmod (2 ^ 32)).toNat < skipped.toNat := by omega
    have place := take_drop_eq_iff distinct size before
    by_cases refused : skipped.bmod (2 ^ 32) < 0 ∧ negative = .rejected
    · rw [if_pos refused]
      have notIgnored : negative ≠ .ignored := by rw [refused.2]; decide
      have noPage : ¬(0 ≤ skipped.bmod (2 ^ 32) ∨ negative = .ignored) := by
        rintro (nonneg | ignored)
        · omega
        · exact notIgnored ignored
      exact iff_of_false (by simp) fun reaches => reaches.elim inRange fun past => noPage past.1
    · rw [if_neg refused]
      have answered : 0 ≤ skipped.bmod (2 ^ 32) ∨ negative = .ignored := by
        cases negative with
        | ignored => exact Or.inr rfl
        | rejected => exact Or.inl (by simpa using refused)
      rw [Option.map_some, Option.some_inj, place]
      constructor
      · exact fun past => Or.inr ⟨answered, past⟩
      · exact fun reaches => reaches.elim (absurd · inRange) And.right

/-- Requests that are answered with their pages are answered with the list, part by part. -/
theorem flatten_pages (unique : (db.trades.map Trade.id).Nodup) {count : Int32}
    (some : 0 < count.toInt) {n : ℕ} (few : n ≤ 2 ^ 31)
    (reach : ∀ i < n, Reaches negative count (.ofNat i)
      (listedTrades db accountId onlyOpen onlyLong).length) :
    ((List.range n).mapM fun i => TradeService.getTradesOfAccount negative db accountId count
      (.ofNat i) onlyOpen onlyLong).map List.flatten =
        Option.some ((listedTrades db accountId onlyOpen onlyLong).take (count.toInt.toNat * n)) := by
  have paged : ∀ i < n, TradeService.getTradesOfAccount negative db accountId count (.ofNat i)
      onlyOpen onlyLong = Option.some (Store.page count.toInt.toNat i
        (listedTrades db accountId onlyOpen onlyLong)) := fun i below => by
    have number : (Int32.ofNat i).toInt = i := Int32.toInt_ofNat_of_lt (by omega)
    have page := (paged_iff unique some (by omega)).mpr (reach i below)
    rwa [Paged, number, Int.toNat_natCast] at page
  rw [mapM_range n paged, Option.map_some, ← List.flatMap_def, flatMap_page]

/-- The list of an account is sorted and without repetition. A request is answered with
the page that it asks for just where the offset reaches: `count * page` is an `int`, or
the offset it wraps to is past the end of the list as well. Pages that are answered so
make up the list from its beginning, and one past the end is empty. -/
theorem pages_complete (negative : NegativeOffset) (db : Database)
    (unique : (db.trades.map Trade.id).Nodup) (accountId : Int) (count : Int32)
    (some : 1 ≤ count.toInt) (onlyOpen onlyLong : Bool) :
    let list := listedTrades db accountId onlyOpen onlyLong
    (list.Nodup ∧ list.Pairwise (fun a b => a.listsBefore b = true) ∧
      ∀ t, t ∈ list ↔ t ∈ db.trades ∧ t.accountId = accountId ∧
        (onlyOpen = true → t.tradeClosed = false) ∧ (onlyLong = true → t.isLong = true)) ∧
    (∀ page : Int32, 0 ≤ page.toInt →
      (Paged negative db accountId count page onlyOpen onlyLong ↔
        Reaches negative count page list.length)) ∧
    (∀ n ≤ 2 ^ 31, (∀ i < n, Reaches negative count (.ofNat i) list.length) →
      ((List.range n).mapM fun i => TradeService.getTradesOfAccount negative db accountId count
        (.ofNat i) onlyOpen onlyLong).map List.flatten =
          Option.some (list.take (count.toInt.toNat * n))) ∧
    ∀ page : Int32, 0 ≤ page.toInt → Reaches negative count page list.length →
      list.length ≤ count.toInt.toNat * page.toInt.toNat →
        TradeService.getTradesOfAccount negative db accountId count page onlyOpen onlyLong =
          Option.some [] := by
  refine ⟨⟨nodup_listedTrades unique, pairwise_listedTrades .., fun t => mem_listedTrades⟩,
    fun page nonneg => paged_iff unique (by omega) nonneg,
    fun n few reach => flatten_pages unique (by omega) few reach, ?_⟩
  intro page nonneg reaches past
  have answered := (paged_iff unique (by omega) nonneg).mpr reaches
  rw [Paged, page_eq_nil past] at answered
  exact answered

/-- An account with one trade, which has been closed. -/
def oneTrade : Database :=
  { balances := [], history := [], owned := [], instruments := [], products := []
    trades := [{ Trade.quickTrade 7 1 .buy 10 2 100 with id := 1 }] }

/-- The pages of that account, two trades a page. -/
theorem pages_complete_of_one_trade :
    let list := listedTrades oneTrade 7 false false
    (list.Nodup ∧ list.Pairwise (fun a b => a.listsBefore b = true) ∧
      ∀ t, t ∈ list ↔ t ∈ oneTrade.trades ∧ t.accountId = 7 ∧
        (false = true → t.tradeClosed = false) ∧ (false = true → t.isLong = true)) ∧
    (∀ page : Int32, 0 ≤ page.toInt →
      (Paged .rejected oneTrade 7 2 page false false ↔ Reaches .rejected 2 page list.length)) ∧
    (∀ n ≤ 2 ^ 31, (∀ i < n, Reaches .rejected 2 (.ofNat i) list.length) →
      ((List.range n).mapM fun i => TradeService.getTradesOfAccount .rejected oneTrade 7 2
        (.ofNat i) false false).map List.flatten =
          some (list.take ((2 : Int32).toInt.toNat * n))) ∧
    ∀ page : Int32, 0 ≤ page.toInt → Reaches .rejected 2 page list.length →
      list.length ≤ (2 : Int32).toInt.toNat * page.toInt.toNat →
        TradeService.getTradesOfAccount .rejected oneTrade 7 2 page false false = some [] :=
  pages_complete .rejected oneTrade (by decide) 7 2 (by decide) false false

/-- With 65536 trades a page, page 65536 is the first page again: the product of the two
is zero. -/
theorem first_page_again :
    (∀ negative, TradeService.getTradesOfAccount negative oneTrade 7 65536 65536 false false =
      some oneTrade.trades) ∧
    (listedTrades oneTrade 7 false false).length ≤ 65536 * 65536 ∧
    ∀ negative, ¬Paged negative oneTrade 7 65536 65536 false false := by
  refine ⟨fun negative => ?_, by decide +kernel, fun negative => ?_⟩
  · cases negative <;> decide +kernel
  · unfold Paged
    cases negative <;> decide +kernel

end EasyTrade.Broker
