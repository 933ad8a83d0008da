import EasyTrade.Broker.Services
import EasyTrade.Content.Timeline
import EasyTrade.Logic.Expansion

/-!
# The newest prices

The threads of the content creator once more, down to the single row. `insertBatchData` opens a
connection and executes a batch of `INSERT` statements without a transaction, so each row can be
read as soon as it is inserted, and a batch that fails leaves behind the rows before the failing
one. The pricing service answers with all the rows of the newest timestamp, and the broker looks
up the price of each instrument in the answer.

So what the broker gets depends on the batches that have reached the table: the prices are
complete just where the newest candles are those of one whole batch
(`current_prices_complete_iff`). They are not while the next minute is inserted.
-/

namespace EasyTrade.Content.Newest

open EasyTrade.Logic EasyTrade.Logic.Program EasyTrade.Content.Timeline

/-! ## The threads, row by row -/

/-- The commands of the threads. -/
inductive Command where
  /-- `cal.getTime()`. -/
  | getTime
  /-- `cal.add(Calendar.MINUTE, 1)`. -/
  | addMinute
  /-- `getConnection` and `prepareStatement` of `insertBatchData`. -/
  | getConnection
  /-- One row of a batch that is executed. -/
  | insertRow (row : Pricing)
  | deleteFromTableBeforeDate (date : Int)

/-- What answers a command. -/
abbrev Reply : Command → Type
  | .getTime => Int
  | _ => Unit

/-- What a thread has done: the rows it has inserted, the last batch first. -/
structure Private where
  batches : List (List Pricing) := []
  deriving DecidableEq

/-- A row is inserted in the batch under way. -/
def Private.addRow (l : Private) (row : Pricing) : Private :=
  match l.batches with
  | [] => ⟨[[row]]⟩
  | batch :: earlier => ⟨(batch ++ [row]) :: earlier⟩

/-- What a command does. -/
def act : (command : Command) → Private → World → Option (Reply command × Private × World)
  | .getTime, l, w => some (w.cal, l, w)
  | .addMinute, l, w => some ((), l, { w with cal := w.cal + 60000 })
  | .getConnection, l, w => some ((), ⟨[] :: l.batches⟩, w)
  | .insertRow row, l, w => some ((), l.addRow row, w.insertBatchData [row])
  | .deleteFromTableBeforeDate date, l, w => some ((), l, w.deleteFromTableBeforeDate date)

/-- The machine of the threads. -/
def machine : Machine Command Reply Failure Private World where
  act := act
  fault := .sql

/-- A thread. -/
abbrev Task := Program Command Reply Failure

/-- Issue a command. -/
def send (command : Command) : Task (Reply command) := perform command

/-- `BATCH_SIZE`. -/
def batchSize : Nat := 100

/-- `executeBatch`. -/
def executeBatch (rows : List Pricing) : Task Unit := forEach rows fun row => send (.insertRow row)

/-- The loop of `insertBatchDataLogic` and the last `executeBatch`; the statement holds the rows
that are `added` and not yet executed. -/
def addBatches (batchSize : Nat) : (i : Nat) → (added data : List Pricing) → Task Unit
  | _, added, [] => executeBatch added
  | i, added, row :: rest =>
    if (i + 1) % batchSize = 0 then do
      executeBatch (added ++ [row])
      addBatches batchSize (i + 1) [] rest
    else addBatches batchSize (i + 1) (added ++ [row]) rest

/-- `insertBatchDataLogic`: an exception is printed. -/
def insertBatchDataLogic (data : List Pricing) (batchSize : Nat) : Task Unit :=
  tryCatch (addBatches batchSize 0 [] data) fun _ => pure ()

/-- How a command of a thread is carried out. -/
def rowByRow : (command : Timeline.Command) → Task (Timeline.Reply command)
  | .getTime => send .getTime
  | .addMinute => send .addMinute
  | .insertBatchData date => do
    send .getConnection
    insertBatchDataLogic (generateAllPricingForGivenDate date) batchSize
  | .deleteFromTableBeforeDate date => send (.deleteFromTableBeforeDate date)

/-- The threads when the second one is started: the main thread has inserted a batch, and its
loop makes so many iterations. -/
def start (t₀ : Int) (pricing : List Pricing) (yesterday : Nat → Int) (n : Nat) :
    System Worker Command Reply Failure Unit Private World where
  threads
    | .main => ⟨(generatePricingData yesterday n 0).expand rowByRow,
        ⟨[generateAllPricingForGivenDate t₀]⟩⟩
    | .backfill => ⟨backfillThread.expand rowByRow, {}⟩
  shared := initializePricingData ⟨t₀, pricing⟩

/-! ## A thread alone -/

theorem insertBatchData_append (w : World) (rows more : List Pricing) :
    (w.insertBatchData rows).insertBatchData more = w.insertBatchData (rows ++ more) := by
  simp [World.insertBatchData]

theorem executeBatch_inserts (rows : List Pricing) (l : Private) (w : World) :
    ∃ l', exec machine (executeBatch rows) never l w = (.ok (), l', w.insertBatchData rows) := by
  induction rows generalizing l w with
  | nil => exact ⟨l, by simp [executeBatch, forEach, World.insertBatchData]⟩
  | cons row rest ih =>
    obtain ⟨l', ran⟩ := ih (l.addRow row) (w.insertBatchData [row])
    have first : exec machine (send (.insertRow row)) never l w =
        (.ok (), l.addRow row, w.insertBatchData [row]) := rfl
    refine ⟨l', (exec_bind_of_ok first).trans ?_⟩
    rw [insertBatchData_append] at ran
    exact ran

/-- Whatever the size of a batch, all rows are inserted in their order. -/
theorem addBatches_inserts (batchSize i : Nat) (added data : List Pricing) (l : Private)
    (w : World) : ∃ l', exec machine (addBatches batchSize i added data) never l w =
      (.ok (), l', w.insertBatchData (added ++ data)) := by
  induction data generalizing i added l w with
  | nil =>
    rw [List.append_nil]
    exact executeBatch_inserts added l w
  | cons row rest ih =>
    have same : added ++ row :: rest = added ++ [row] ++ rest := by simp
    rw [addBatches, same]
    split
    · obtain ⟨l₁, first⟩ := executeBatch_inserts (added ++ [row]) l w
      obtain ⟨l', ran⟩ := ih (i + 1) [] l₁ (w.insertBatchData (added ++ [row]))
      refine ⟨l', (exec_bind_of_ok first).trans ?_⟩
      rw [insertBatchData_append] at ran
      exact ran
    · exact ih (i + 1) (added ++ [row]) l w

/-- With nobody to look on, and nothing failing, it makes no difference that batches are inserted
row by row. -/
theorem leaves_rowByRow {α : Type} (task : Timeline.Task α) (l : Timeline.Private) (l' : Private)
    (w : World) :
    leaves machine (task.expand rowByRow) never l' w = leaves Timeline.machine task never l w := by
  refine leaves_expand (fun _ _ => True) (fun command l l' w _ => ?_) task trivial w
  cases command with
  | getTime => exact ⟨_, _, _, _, rfl, rfl, trivial⟩
  | addMinute => exact ⟨_, _, _, _, rfl, rfl, trivial⟩
  | deleteFromTableBeforeDate date => exact ⟨_, _, _, _, rfl, rfl, trivial⟩
  | insertBatchData date =>
    have opened : exec machine (send .getConnection) never l' w =
        (.ok (), ⟨[] :: l'.batches⟩, w) := rfl
    obtain ⟨l₁, ran⟩ := addBatches_inserts batchSize 0 [] (generateAllPricingForGivenDate date)
      ⟨[] :: l'.batches⟩ w
    refine ⟨(), _, _, l₁, rfl, ?_, trivial⟩
    exact (exec_bind_of_ok opened).trans (exec_tryCatch_of_ok ran)

/-! ## The readers -/

/-- `GetCurrentPrices`: the rows whose `Timestamp` is `max(Timestamp)`. -/
def getCurrentPrices (pricing : List Pricing) : List Pricing :=
  pricing.filter fun p => some p.timestamp = (pricing.map Pricing.timestamp).max?

/-- There is one price of each instrument. -/
def OneForEach (prices : List Pricing) : Prop :=
  ∀ instrument : Instruments,
    prices.countP (fun p => p.instrumentId = instrument.getInstrumentId) = 1

/-- The broker's dictionary of the prices is built, and has the price of each instrument. -/
def Served (prices : List Pricing) : Prop :=
  Broker.toDictionary Pricing.instrumentId prices = pure prices ∧
    ∀ instrument : Instruments, ∃ p,
      Broker.item Pricing.instrumentId prices instrument.getInstrumentId = pure p

/-- The newest candles are those of one batch, which is whole. -/
def NewestWhole (batches : List (List Pricing)) : Prop :=
  ∃ before batch after, batches = before ++ batch :: after ∧
    batch.length = Instruments.values.length ∧
    ∀ other ∈ before ++ after, ∀ p ∈ other, ∀ q ∈ batch, p.timestamp < q.timestamp

/-- A clean-up leaves some of the rows. -/
def LeavesRows : Command → Private → World → Prop
  | .deleteFromTableBeforeDate date, _, w => ∃ p ∈ w.pricing, date / 1000 ≤ p.timestamp
  | _, _, _ => True

instance (command : Command) (l : Private) (w : World) : Decidable (LeavesRows command l w) := by
  induction command using Command.casesOn with
  | deleteFromTableBeforeDate date => exact inferInstanceAs (Decidable (∃ p ∈ w.pricing, _))
  | _ => exact isTrue trivial

theorem max?_timestamps {pricing : List Pricing} {t : Int} :
    (pricing.map Pricing.timestamp).max? = some t ↔
      (∃ p ∈ pricing, p.timestamp = t) ∧ ∀ q ∈ pricing, q.timestamp ≤ t := by
  rw [List.max?_eq_some_iff, List.mem_map, List.forall_mem_map]

/-- Where the newest second is known, the prices are its rows. -/
theorem getCurrentPrices_eq {pricing : List Pricing} {t : Int}
    (newest : (pricing.map Pricing.timestamp).max? = some t) :
    getCurrentPrices pricing = pricing.filter fun p => p.timestamp = t := by
  unfold getCurrentPrices
  rw [newest]
  exact List.filter_congr fun p _ => by simp

theorem exists_newest {pricing : List Pricing} {p : Pricing} (mem : p ∈ pricing) :
    ∃ t, (pricing.map Pricing.timestamp).max? = some t := by
  have some : pricing.map Pricing.timestamp ≠ [] :=
    mt List.map_eq_nil_iff.mp (List.ne_nil_of_mem mem)
  exact Option.isSome_iff_exists.mp (List.isSome_max?_of_ne_nil some)

/-- With one price of each instrument, and no other, the broker finds what it looks up. -/
theorem served_of_oneForEach {prices : List Pricing} (one : OneForEach prices)
    (known : ∀ p ∈ prices, ∃ instrument : Instruments,
      p.instrumentId = instrument.getInstrumentId) : Served prices := by
  have unique : (prices.map Pricing.instrumentId).Nodup := by
    refine List.nodup_iff_count_le_one.mpr fun id => ?_
    rw [List.count, List.countP_map]
    by_cases listed : ∃ p ∈ prices, p.instrumentId = id
    · obtain ⟨p, mem, rfl⟩ := listed
      obtain ⟨instrument, same⟩ := known p mem
      rw [same]
      refine Nat.le_of_eq ((List.countP_congr fun q _ => ?_).trans (one instrument))
      simp
    · rw [List.countP_eq_zero.mpr]
      · exact Nat.zero_le 1
      · intro p mem same
        exact listed ⟨p, mem, by simpa using same⟩
  refine ⟨if_pos unique, fun instrument => ?_⟩
  have some : 0 < prices.countP fun p => p.instrumentId = instrument.getInstrumentId := by
    rw [one instrument]
    exact Nat.one_pos
  obtain ⟨p, mem, own⟩ := List.countP_pos_iff.mp some
  have found := Store.lookup_of_mem unique mem
  rw [of_decide_eq_true own] at found
  exact ⟨p, by rw [Broker.item, found]⟩

/-! ## Batches -/

/-- The rows are the first candles of a minute. -/
def Begun (rows : List Pricing) : Prop := ∃ date, rows <+: generateAllPricingForGivenDate date

theorem length_generate (date : Int) :
    (generateAllPricingForGivenDate date).length = Instruments.values.length :=
  List.length_map ..

/-- A row of a batch has its second, and the batch has a row of the first instrument. -/
theorem Begun.first {rows : List Pricing} (begun : Begun rows) {p : Pricing} (mem : p ∈ rows) :
    ⟨Instruments.easyTravel.getInstrumentId, p.timestamp⟩ ∈ rows := by
  obtain ⟨date, rest, whole⟩ := begun
  have own : p ∈ generateAllPricingForGivenDate date := whole ▸ List.mem_append_left rest mem
  obtain ⟨instrument, -, rfl⟩ := List.mem_map.mp own
  cases rows with
  | nil => cases mem
  | cons row later =>
    have head : row = ⟨Instruments.easyTravel.getInstrumentId, date / 1000⟩ :=
      (List.cons.inj whole).1
    rw [head]
    exact List.mem_cons_self

/-- A batch with a row of the last instrument is whole. -/
theorem Begun.whole {rows : List Pricing} (begun : Begun rows) {p : Pricing} (mem : p ∈ rows)
    (last : p.instrumentId = Instruments.moroba.getInstrumentId) :
    rows.length = Instruments.values.length := by
  obtain ⟨date, first⟩ := begun
  by_contra other
  have short : rows.length ≤ 14 := by
    have := first.length_le
    rw [length_generate] at this
    have all : Instruments.values.length = 15 := rfl
    omega
  have early : rows <+: (generateAllPricingForGivenDate date).take 14 :=
    List.prefix_take_iff.mpr ⟨first, short⟩
  rw [generateAllPricingForGivenDate, ← List.map_take] at early
  obtain ⟨instrument, among, rfl⟩ := List.mem_map.mp (early.subset mem)
  have apart : ∀ i ∈ Instruments.values.take 14,
      i.getInstrumentId ≠ Instruments.moroba.getInstrumentId := by decide
  exact apart instrument among last

/-- A whole batch has one candle of each instrument, and of nothing else, in its second. -/
theorem Begun.oneForEach {rows : List Pricing} (begun : Begun rows)
    (whole : rows.length = Instruments.values.length) : OneForEach rows := by
  obtain ⟨date, first⟩ := begun
  have same := first.eq_of_length (whole.trans (length_generate date).symm)
  intro instrument
  rw [same, generateAllPricingForGivenDate, List.countP_map, ← Instruments.countP_values instrument]
  rfl

theorem Begun.known {rows : List Pricing} (begun : Begun rows) {p : Pricing} (mem : p ∈ rows) :
    ∃ instrument : Instruments, p.instrumentId = instrument.getInstrumentId := by
  obtain ⟨date, first⟩ := begun
  obtain ⟨instrument, -, rfl⟩ := List.mem_map.mp (first.subset mem)
  exact ⟨instrument, rfl⟩

/-- The rows of a batch have one second. -/
theorem Begun.second {rows : List Pricing} (begun : Begun rows) {p q : Pricing} (mem : p ∈ rows)
    (mem' : q ∈ rows) : p.timestamp = q.timestamp := by
  obtain ⟨date, first⟩ := begun
  obtain ⟨_, -, rfl⟩ := List.mem_map.mp (first.subset mem)
  obtain ⟨_, -, rfl⟩ := List.mem_map.mp (first.subset mem')
  rfl

/-- What adds up to one is one in one place and nothing elsewhere. -/
theorem exists_of_sum_eq_one {β : Type} {f : β → Nat} {l : List β} (one : (l.map f).sum = 1) :
    ∃ before b after, l = before ++ b :: after ∧ f b = 1 ∧ ∀ o ∈ before ++ after, f o = 0 := by
  induction l with
  | nil => cases one
  | cons b rest ih =>
    rw [List.map_cons, List.sum_cons] at one
    cases here : f b with
    | zero =>
      rw [here, Nat.zero_add] at one
      obtain ⟨before, b', after, rfl, isOne, none⟩ := ih one
      refine ⟨b :: before, b', after, rfl, isOne, fun o mem => ?_⟩
      rcases List.mem_cons.mp mem with rfl | later
      · exact here
      · exact none o later
    | succ k =>
      have none : (rest.map f).sum = 0 := by omega
      refine ⟨[], b, rest, rfl, by omega, fun o mem => ?_⟩
      exact List.sum_eq_zero_iff_forall_eq_nat.mp none _ (List.mem_map_of_mem mem)

variable {batches : List (List Pricing)} {t : Int}

/-- One candle of each instrument in the newest second makes it the second of one whole batch. -/
theorem newestWhole_of_oneForEach (begun : ∀ b ∈ batches, Begun b)
    (newest : (batches.flatten.map Pricing.timestamp).max? = some t)
    (one : OneForEach (batches.flatten.filter fun p => p.timestamp = t)) : NewestWhole batches := by
  obtain ⟨⟨p, mem, atNewest⟩, upTo⟩ := max?_timestamps.mp newest
  have counted := one .easyTravel
  rw [List.countP_filter, List.countP_flatten] at counted
  obtain ⟨before, b, after, rfl, -, none⟩ := exists_of_sum_eq_one counted
  have among : ∀ o, o ∈ before ++ after ∨ o = b ↔ o ∈ before ++ b :: after := by
    intro o
    simp only [List.mem_append, List.mem_cons]
    tauto
  -- a batch without the first candle has no row of the newest second
  have others : ∀ o ∈ before ++ after, ∀ q ∈ o, q.timestamp ≠ t := by
    rintro o other q inOther rfl
    have first := (begun o ((among o).mp (.inl other))).first inOther
    exact List.countP_eq_zero.mp (none o other) _ first (by simp)
  have inB : ∀ q ∈ (before ++ b :: after).flatten, q.timestamp = t → q ∈ b := by
    intro q inRows same
    obtain ⟨o, inList, inBatch⟩ := List.mem_flatten.mp inRows
    rcases (among o).mpr inList with other | rfl
    · exact absurd same (others o other q inBatch)
    · exact inBatch
  have begunB := begun b ((among b).mp (.inr rfl))
  have whole : b.length = Instruments.values.length := by
    have some : 0 < ((before ++ b :: after).flatten.filter fun p => p.timestamp = t).countP
        fun p => p.instrumentId = Instruments.moroba.getInstrumentId := by
      rw [one .moroba]
      exact Nat.one_pos
    obtain ⟨last, inRows, own⟩ := List.countP_pos_iff.mp some
    obtain ⟨stored, same⟩ := List.mem_filter.mp inRows
    exact begunB.whole (inB last stored (of_decide_eq_true same)) (of_decide_eq_true own)
  refine ⟨before, b, after, rfl, whole, fun o other q inOther q' inBatch => ?_⟩
  have same : q'.timestamp = t := (begunB.second inBatch (inB p mem atNewest)).trans atNewest
  rw [same]
  have stored := List.mem_flatten_of_mem ((among o).mp (.inl other)) inOther
  exact lt_of_le_of_ne (upTo q stored) (others o other q inOther)

/-- Where the newest candles are those of one whole batch, the newest second has its rows. -/
theorem NewestWhole.filter_eq (newestWhole : NewestWhole batches) (begun : ∀ b ∈ batches, Begun b)
    (newest : (batches.flatten.map Pricing.timestamp).max? = some t) :
    ∃ b, Begun b ∧ b.length = Instruments.values.length ∧
      batches.flatten.filter (fun p => p.timestamp = t) = b := by
  obtain ⟨⟨p, mem, atNewest⟩, upTo⟩ := max?_timestamps.mp newest
  obtain ⟨before, b, after, rfl, whole, older⟩ := newestWhole
  have begunB : Begun b := begun b (by simp)
  obtain ⟨q, inB⟩ : ∃ q, q ∈ b := by
    refine List.exists_mem_of_length_pos ?_
    rw [whole]
    decide
  have atB : ∀ q ∈ b, q.timestamp = t := by
    intro q' inBatch
    have stored := List.mem_flatten_of_mem (show b ∈ before ++ b :: after by simp) inBatch
    refine le_antisymm (upTo q' stored) ?_
    obtain ⟨o, inList, inO⟩ := List.mem_flatten.mp mem
    rcases List.mem_append.mp inList with early | late
    · exact atNewest ▸ (older o (List.mem_append_left _ early) p inO q' inBatch).le
    · rcases List.mem_cons.mp late with rfl | late
      · exact (atNewest.symm.trans (begunB.second inO inBatch)).le
      · exact atNewest ▸ (older o (List.mem_append_right _ late) p inO q' inBatch).le
  have none : ∀ os : List (List Pricing), (∀ o ∈ os, o ∈ before ++ after) →
      os.flatten.filter (fun p => decide (p.timestamp = t)) = [] := by
    intro os within
    refine List.filter_eq_nil_iff.mpr fun p' inOs same => ?_
    obtain ⟨o, inList, inO⟩ := List.mem_flatten.mp inOs
    have earlier := older o (within o inList) p' inO q inB
    rw [of_decide_eq_true same, atB q inB] at earlier
    exact lt_irrefl _ earlier
  have all : b.filter (fun p => decide (p.timestamp = t)) = b :=
    List.filter_eq_self.mpr fun q' inBatch => decide_eq_true (atB q' inBatch)
  refine ⟨b, begunB, whole, ?_⟩
  rw [List.flatten_append, List.flatten_cons, List.filter_append, List.filter_append, all,
    none before fun o mem => List.mem_append_left _ mem,
    none after fun o mem => List.mem_append_right _ mem, List.nil_append, List.append_nil]

/-! ## What the threads keep -/

/-- The batches of a thread are as far as they have got. -/
def Private.Ordered (l : Private) : Prop := ∀ b ∈ l.batches, Begun b

/-- A row is inserted where it is the next one of its batch. -/
def Guarded : Command → Private → Prop
  | .insertRow row, l => ∃ b earlier, l.batches = b :: earlier ∧ Begun (b ++ [row])
  | _, _ => True

/-- The contract of a thread. -/
def contract : Contract Command Failure Private World where
  assume _ _ := True
  guard := Guarded
  abort _ l := l.Ordered

variable {l l' : Private} {w w' : World}

/-- The rows of the batch under way. -/
def At (rows : List Pricing) (l : Private) : Prop := l.Ordered ∧ ∃ earlier, l.batches = rows :: earlier

theorem insertRow_holds {done : List Pricing} {row : Pricing} (at_ : At done l)
    (next : Begun (done ++ [row])) :
    Holds machine contract (send (.insertRow row)) (fun _ => At (done ++ [row])) l := by
  obtain ⟨ordered, earlier, here⟩ := at_
  refine holds_perform ⟨done, earlier, here, next⟩ ordered fun w reply l' w' _ acted => ?_
  cases acted
  have batches : (l.addRow row).batches = (done ++ [row]) :: earlier := by
    rw [Private.addRow, here]
  refine ⟨fun b mem => ?_, earlier, batches⟩
  rw [batches] at mem
  rcases List.mem_cons.mp mem with rfl | before
  · exact next
  · exact ordered b (here ▸ List.mem_cons_of_mem _ before)

/-- The first rows of a batch that goes on have begun it. -/
theorem Begun.of_append {rows rest : List Pricing} (begun : Begun (rows ++ rest)) : Begun rows := by
  obtain ⟨date, first⟩ := begun
  exact ⟨date, (List.prefix_append rows rest).trans first⟩

theorem executeBatch_holds {done rows : List Pricing} (at_ : At done l)
    (goesOn : Begun (done ++ rows)) :
    Holds machine contract (executeBatch rows) (fun _ => At (done ++ rows)) l := by
  refine (holds_forEach (fun rest l => ∃ made, At (done ++ made) l ∧ made ++ rest = rows) ?_ rows l
    ⟨[], by rwa [List.append_nil], rfl⟩).mono ?_
  · rintro row rest l ⟨made, at_, rfl⟩
    have whole : Begun (done ++ made ++ [row] ++ rest) := by
      rwa [List.append_assoc, List.append_assoc]
    refine (insertRow_holds at_ whole.of_append).mono fun _ l' after => ?_
    exact ⟨made ++ [row], by rwa [← List.append_assoc], by simp⟩
  · rintro _ l' ⟨made, at_, rfl⟩
    rwa [List.append_nil]

theorem addBatches_holds {batchSize i : Nat} {done added data : List Pricing} (at_ : At done l)
    (goesOn : Begun (done ++ added ++ data)) :
    Holds machine contract (addBatches batchSize i added data) (fun _ => Private.Ordered) l := by
  induction data generalizing i done added l with
  | nil =>
    rw [List.append_nil] at goesOn
    exact (executeBatch_holds at_ goesOn).mono fun _ _ after => after.1
  | cons row rest ih =>
    have next : done ++ (added ++ [row]) ++ rest = done ++ added ++ row :: rest := by simp
    rw [← next] at goesOn
    rw [addBatches]
    split
    · rw [holds_bind]
      refine (executeBatch_holds at_ goesOn.of_append).mono fun _ l' after => ?_
      exact ih after (by rwa [List.append_nil])
    · exact ih at_ goesOn

/-- Whatever is refused, the batches of a thread are as far as they have got. -/
theorem rowByRow_holds (command : Timeline.Command) (ordered : l.Ordered) :
    Holds machine { contract with abort := fun _ => Private.Ordered } (rowByRow command)
      (fun _ => Private.Ordered) l := by
  cases command with
  | getTime =>
    refine holds_perform trivial ordered fun w reply l' w' _ acted => ?_
    cases acted
    exact ordered
  | addMinute =>
    refine holds_perform trivial ordered fun w reply l' w' _ acted => ?_
    cases acted
    exact ordered
  | deleteFromTableBeforeDate date =>
    refine holds_perform trivial ordered fun w reply l' w' _ acted => ?_
    cases acted
    exact ordered
  | insertBatchData date =>
    unfold rowByRow
    rw [holds_bind]
    refine holds_perform trivial ordered fun w reply l' w' _ acted => ?_
    cases acted
    have opened : At [] ⟨[] :: l.batches⟩ := by
      refine ⟨fun b mem => ?_, l.batches, rfl⟩
      rcases List.mem_cons.mp mem with rfl | before
      · exact ⟨date, List.nil_prefix⟩
      · exact ordered b before
    refine holds_tryCatch ?_
    exact addBatches_holds opened ⟨date, List.prefix_rfl⟩

/-! ## What can be read -/

/-- The batches of both threads. -/
def written (privs : Worker → Private) : List (List Pricing) :=
  (privs .main).batches ++ (privs .backfill).batches

/-- From some second on the table has the rows of the batches, and it has some of them. -/
structure Visible (privs : Worker → Private) (w : World) : Prop where
  ordered : ∀ i, (privs i).Ordered
  rows : ∃ removed, (∃ p ∈ w.pricing, removed ≤ p.timestamp) ∧
    ∀ q : Pricing → Bool, (∀ p, q p = true → removed ≤ p.timestamp) →
      w.pricing.countP q = (written privs).flatten.countP q

variable {privs : Worker → Private} {i : Worker}

theorem countP_written_update {q : Pricing → Bool} {k : Nat}
    (own : l'.batches.flatten.countP q = (privs i).batches.flatten.countP q + k) :
    (written (Function.update privs i l')).flatten.countP q =
      (written privs).flatten.countP q + k := by
  have apart : Worker.backfill ≠ Worker.main := by decide
  unfold written
  rw [List.flatten_append, List.flatten_append, List.countP_append, List.countP_append]
  cases i with
  | main =>
    rw [Function.update_self, Function.update_of_ne apart, own]
    omega
  | backfill =>
    rw [Function.update_self, Function.update_of_ne apart.symm, own]
    omega

theorem ordered_update (ordered : ∀ i, (privs i).Ordered) (own : l'.Ordered) (j : Worker) :
    (Function.update privs i l' j).Ordered := by
  by_cases same : j = i
  · rw [same, Function.update_self]
    exact own
  · rw [Function.update_of_ne same]
    exact ordered j

/-- Every command that a thread may issue, and that leaves rows in the table, keeps it. -/
theorem Visible.act {command : Command} {reply : Reply command} (visible : Visible privs w)
    (guarded : Guarded command (privs i)) (leaves : LeavesRows command (privs i) w)
    (acted : machine.act command (privs i) w = some (reply, l', w')) :
    Visible (Function.update privs i l') w' := by
  obtain ⟨ordered, removed, some, counts⟩ := visible
  cases command with
  | getTime =>
    cases acted
    rw [Function.update_eq_self]
    exact ⟨ordered, removed, some, counts⟩
  | addMinute =>
    cases acted
    rw [Function.update_eq_self]
    exact ⟨ordered, removed, some, counts⟩
  | getConnection =>
    cases acted
    refine ⟨ordered_update ordered fun b mem => ?_, removed, some, fun q above => ?_⟩
    · rcases List.mem_cons.mp mem with rfl | before
      · exact ⟨0, List.nil_prefix⟩
      · exact ordered i b before
    · have same : (written (Function.update privs i ⟨[] :: (privs i).batches⟩)).flatten.countP q =
          (written privs).flatten.countP q + 0 := countP_written_update rfl
      exact (counts q above).trans same.symm
  | insertRow row =>
    cases acted
    obtain ⟨batch, earlier, here, next⟩ := guarded
    have batches : ((privs i).addRow row).batches = (batch ++ [row]) :: earlier := by
      rw [Private.addRow, here]
    refine ⟨ordered_update ordered fun b mem => ?_, removed, ?_, fun q above => ?_⟩
    · rw [batches] at mem
      rcases List.mem_cons.mp mem with rfl | before
      · exact next
      · exact ordered i b (here ▸ List.mem_cons_of_mem _ before)
    · obtain ⟨p, mem, late⟩ := some
      exact ⟨p, List.mem_append_left _ mem, late⟩
    · have own : ((privs i).addRow row).batches.flatten.countP q =
          (privs i).batches.flatten.countP q + [row].countP q := by
        rw [batches, here, List.flatten_cons, List.flatten_cons, List.countP_append,
          List.countP_append, List.countP_append]
        omega
      rw [countP_written_update own, ← counts q above]
      exact List.countP_append
  | deleteFromTableBeforeDate date =>
    cases acted
    rw [Function.update_eq_self]
    obtain ⟨p, mem, late⟩ := some
    obtain ⟨p', mem', late'⟩ := leaves
    refine ⟨ordered, max removed (date / 1000), ?_, fun q above => ?_⟩
    · by_cases order : removed ≤ date / 1000
      · refine ⟨p', List.mem_filter.mpr ⟨mem', decide_eq_true (by omega)⟩, by omega⟩
      · refine ⟨p, List.mem_filter.mpr ⟨mem, decide_eq_true (by omega)⟩, by omega⟩
    · rw [← counts q fun p holds => (le_max_left _ _).trans (above p holds)]
      refine (List.countP_filter ..).trans (List.countP_congr fun p _ => ?_)
      have kept := above p
      simp only [Bool.and_eq_true, decide_eq_true_eq]
      exact ⟨And.left, fun holds => ⟨holds, by have := kept holds; omega⟩⟩

/-- What can be read is what has been written. -/
theorem Visible.complete_iff (visible : Visible privs w) :
    OneForEach (getCurrentPrices w.pricing) ∧ Served (getCurrentPrices w.pricing) ↔
      NewestWhole (written privs) := by
  obtain ⟨ordered, removed, ⟨p, mem, late⟩, counts⟩ := visible
  have begun : ∀ b ∈ written privs, Begun b := by
    intro b inList
    rcases List.mem_append.mp inList with main | backfill
    · exact ordered .main b main
    · exact ordered .backfill b backfill
  obtain ⟨t, newest⟩ := exists_newest mem
  obtain ⟨⟨p', mem', atNewest⟩, upTo⟩ := max?_timestamps.mp newest
  have after : removed ≤ t := late.trans (upTo p mem)
  have inRows : ∀ q : Pricing, t ≤ q.timestamp →
      (q ∈ w.pricing ↔ q ∈ (written privs).flatten) := by
    intro q above
    have same := counts (fun p => decide (p = q)) fun p' isQ => by
      rw [of_decide_eq_true isQ]
      exact after.trans above
    have positive : ∀ rows : List Pricing,
        0 < rows.countP (fun p => decide (p = q)) ↔ q ∈ rows := by
      intro rows
      simp [List.countP_pos_iff]
    rw [← positive, ← positive, same]
  have newest' : ((written privs).flatten.map Pricing.timestamp).max? = some t := by
    rw [max?_timestamps]
    refine ⟨⟨p', (inRows p' atNewest.ge).mp mem', atNewest⟩, fun q inWritten => ?_⟩
    by_contra later
    have stored := (inRows q (not_le.mp later).le).mpr inWritten
    exact later (upTo q stored)
  have same : OneForEach (w.pricing.filter fun p => p.timestamp = t) ↔
      OneForEach ((written privs).flatten.filter fun p => p.timestamp = t) := by
    refine forall_congr' fun instrument => ?_
    rw [List.countP_filter, List.countP_filter, counts]
    intro p' holds
    simp only [Bool.and_eq_true, decide_eq_true_eq] at holds
    exact holds.2 ▸ after
  rw [getCurrentPrices_eq newest]
  constructor
  · rintro ⟨one, -⟩
    exact newestWhole_of_oneForEach begun newest' (same.mp one)
  · intro newestWhole
    obtain ⟨b, begunB, whole, rows⟩ := newestWhole.filter_eq begun newest'
    have one := same.mpr (rows ▸ begunB.oneForEach whole)
    refine ⟨one, served_of_oneForEach one fun p' inPrices => ?_⟩
    obtain ⟨stored, isNewest⟩ := List.mem_filter.mp inPrices
    have atT := of_decide_eq_true isNewest
    have inB : p' ∈ b := rows ▸ List.mem_filter.mpr ⟨(inRows p' atT.ge).mp stored, isNewest⟩
    exact begunB.known inB

/-! ## Runs -/

section Runs

variable {t₀ : Int} {pricing : List Pricing}

theorem begun_generate (date : Int) : Begun (generateAllPricingForGivenDate date) :=
  ⟨date, List.prefix_rfl⟩

theorem timestamp_of_mem_generate {date : Int} {p : Pricing}
    (mem : p ∈ generateAllPricingForGivenDate date) : p.timestamp = date / 1000 := by
  obtain ⟨_, -, rfl⟩ := List.mem_map.mp mem
  rfl

/-- Above what was there before, the table has the first batch. -/
theorem visible_of_first {privs : Worker → Private} {w : World}
    (older : ∀ p ∈ pricing, p.timestamp < t₀ / 1000)
    (main : (privs .main).batches = [generateAllPricingForGivenDate t₀])
    (backfill : (privs .backfill).batches = [])
    (rows : ∀ q : Pricing → Bool, (∀ p, q p = true → t₀ / 1000 ≤ p.timestamp) →
      w.pricing.countP q = (pricing ++ generateAllPricingForGivenDate t₀).countP q) :
    Visible privs w := by
  have whole : (written privs).flatten = generateAllPricingForGivenDate t₀ := by
    rw [written, main, backfill]
    rfl
  have all : ∀ q : Pricing → Bool, (∀ p, q p = true → t₀ / 1000 ≤ p.timestamp) →
      w.pricing.countP q = (generateAllPricingForGivenDate t₀).countP q := by
    intro q above
    have none : pricing.countP q = 0 :=
      List.countP_eq_zero.mpr fun p mem holds => absurd (above p holds) (not_le.mpr (older p mem))
    rw [rows q above, List.countP_append, none, Nat.zero_add]
  refine ⟨fun i b mem => ?_, t₀ / 1000, ?_, whole.symm ▸ all⟩
  · cases i with
    | main =>
      rw [main] at mem
      exact List.mem_singleton.mp mem ▸ begun_generate t₀
    | backfill =>
      rw [backfill] at mem
      cases mem
  · have some : 0 < w.pricing.countP fun p => t₀ / 1000 ≤ p.timestamp := by
      rw [all _ fun p => of_decide_eq_true, List.countP_pos_iff]
      exact ⟨⟨1, t₀ / 1000⟩, List.mem_cons_self, by simp⟩
    obtain ⟨p, mem, late⟩ := List.countP_pos_iff.mp some
    exact ⟨p, mem, of_decide_eq_true late⟩

theorem start_keeps (t₀ : Int) (pricing : List Pricing) (yesterday : Nat → Int) (n : Nat)
    (i : Worker) :
    ((start t₀ pricing yesterday n).threads i).Safe machine contract (fun _ => Private.Ordered) := by
  have carried := fun (c : Timeline.Command) (l : Private) (ordered : l.Ordered) =>
    rowByRow_holds c ordered
  cases i with
  | main =>
    refine holds_expand carried (fun _ _ ordered => ordered) _ fun b mem => ?_
    exact List.mem_singleton.mp mem ▸ begun_generate t₀
  | backfill =>
    refine holds_expand carried (fun _ _ ordered => ordered) _ fun b mem => ?_
    cases mem

/-- As long as the clean-ups leave rows in the table. -/
theorem run_visible {yesterday : Nat → Int} {n : Nat}
    (older : ∀ p ∈ pricing, p.timestamp < t₀ / 1000) {schedule : List (Worker × Bool)}
    (meets : (start t₀ pricing yesterday n).Meets machine LeavesRows schedule) :
    Visible ((start t₀ pricing yesterday n).run machine schedule).privs
      ((start t₀ pricing yesterday n).run machine schedule).shared := by
  have first : Visible (start t₀ pricing yesterday n).privs (start t₀ pricing yesterday n).shared := by
    refine visible_of_first older rfl rfl fun q above => ?_
    change ((pricing ++ generateAllPricingForGivenDate t₀).filter _).countP q = _
    rw [List.countP_filter]
    refine List.countP_congr fun p _ => ?_
    have late := above p
    simp only [Bool.and_eq_true, decide_eq_true_eq]
    exact ⟨And.left, fun holds => ⟨holds, not_lt.mpr (late holds)⟩⟩
  exact (System.run_invariant Visible (fun _ _ _ _ => trivial)
    (fun privs i w command reply l' w' guarded leaves visible acted =>
      visible.act guarded leaves acted) schedule (start_keeps t₀ pricing yesterday n) first meets).1

end Runs

/-- After the first batch the prices are complete, before the older rows are removed and as
long as the newest candles are those of one whole batch; every other time they are not. -/
theorem current_prices_complete_iff (t₀ : Int) (pricing : List Pricing) (yesterday : Nat → Int)
    (n : Nat) (older : ∀ p ∈ pricing, p.timestamp < t₀ / 1000) :
    (let first := (World.mk t₀ pricing).insertBatchData (generateAllPricingForGivenDate t₀)
      let prices := getCurrentPrices first.pricing
      OneForEach prices ∧ Served prices) ∧
    ∀ schedule, (start t₀ pricing yesterday n).Meets machine LeavesRows schedule →
      let s := (start t₀ pricing yesterday n).run machine schedule
      let prices := getCurrentPrices s.shared.pricing
      (OneForEach prices ∧ Served prices ↔ NewestWhole (written s.privs)) := by
  constructor
  · have visible : Visible (start t₀ pricing yesterday n).privs
        ((World.mk t₀ pricing).insertBatchData (generateAllPricingForGivenDate t₀)) :=
      visible_of_first older rfl rfl fun _ _ => rfl
    refine visible.complete_iff.mpr ⟨[], _, [], rfl, length_generate t₀, fun other mem => ?_⟩
    cases mem
  · intro schedule meets
    exact (run_visible older meets).complete_iff

/-- A whole iteration of the main loop, over the candle of a seed. -/
theorem current_prices_complete_of_whole_minute :
    let s := (start 1767225600000 [⟨1, 1767225500⟩] (fun _ => 0) 1).run machine
      (List.replicate 18 (.main, false))
    OneForEach (getCurrentPrices s.shared.pricing) ∧ Served (getCurrentPrices s.shared.pricing) := by
  have older : ∀ p ∈ [(⟨1, 1767225500⟩ : Pricing)], p.timestamp < 1767225600000 / 1000 := by decide
  refine ((current_prices_complete_iff 1767225600000 _ (fun _ => 0) 1 older).2
    (List.replicate 18 (.main, false)) (by decide +kernel)).mpr ?_
  refine ⟨[], generateAllPricingForGivenDate 1767225660000,
    [generateAllPricingForGivenDate 1767225600000], ?_, ?_, ?_⟩ <;> decide +kernel

/-- While the first candle of the next minute is the only one of its batch, the other instruments
have no price, and the broker does not find what it looks up. -/
theorem current_prices_incomplete :
    let s := (start 1767225600000 [] (fun _ => 0) 1).run machine (List.replicate 4 (.main, false))
    ¬OneForEach (getCurrentPrices s.shared.pricing) ∧
      ¬Served (getCurrentPrices s.shared.pricing) := by
  intro s
  have none : Store.lookup Pricing.instrumentId Instruments.easyHotels.getInstrumentId
      (getCurrentPrices s.shared.pricing) = none := by decide +kernel
  constructor
  · intro one
    have hotels := one .easyHotels
    revert hotels
    decide +kernel
  · rintro ⟨-, items⟩
    obtain ⟨p, found⟩ := items .easyHotels
    rw [Broker.item, none] at found
    cases found

end EasyTrade.Content.Newest
