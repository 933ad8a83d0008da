import EasyTrade.Logic.Alone

/-!
# The timeline of prices

At its start the content creator inserts a candle of each instrument for the current minute,
removes what is older, and starts a thread that goes backwards from that minute for twelve hours.
Its main loop goes on forwards. The thread finds the minute it starts from in the calendar of the
main loop, when its body begins to run. If the loop has moved the calendar by then, the thread
inserts once more what the loop has inserted, and the earliest minutes are missing.

Times are in milliseconds, timestamps of candles in seconds. The container keeps UTC. The prices
of a candle are random and do not matter here.
-/

namespace EasyTrade.Content.Timeline

open EasyTrade.Logic EasyTrade.Logic.Program

/-! ## Candles -/

/-- `Instruments`. -/
inductive Instruments where
  | easyTravel | easyPlanes | easyHotels | janGrp | corfig | cmrtin | chamat | blstcr | cafgal
  | decgrp | petban | batbat | stollc | lebrga | moroba
  deriving DecidableEq, Repr

namespace Instruments

/-- `values`. -/
def values : List Instruments :=
  [easyTravel, easyPlanes, easyHotels, janGrp, corfig, cmrtin, chamat, blstcr, cafgal, decgrp,
    petban, batbat, stollc, lebrga, moroba]

/-- `getInstrumentId`. -/
def getInstrumentId : Instruments → Int
  | easyTravel => 1
  | easyPlanes => 2
  | easyHotels => 3
  | janGrp => 4
  | corfig => 5
  | cmrtin => 6
  | chamat => 7
  | blstcr => 8
  | cafgal => 9
  | decgrp => 10
  | petban => 11
  | batbat => 12
  | stollc => 13
  | lebrga => 14
  | moroba => 15

/-- Each instrument has an identifier of its own. -/
theorem countP_values (instrument : Instruments) :
    values.countP (fun i => i.getInstrumentId = instrument.getInstrumentId) = 1 := by
  cases instrument <;> decide

end Instruments

/-- What is kept of a row of `Pricing`. -/
structure Pricing where
  instrumentId : Int
  /-- The timestamp, in seconds. -/
  timestamp : Int
  deriving DecidableEq, Repr

/-- The minute of a candle. -/
def Pricing.minute (p : Pricing) : Int := p.timestamp / 60

/-- The candle is one of an instrument in a minute. -/
def Pricing.IsOf (instrument : Instruments) (minute : Int) (p : Pricing) : Prop :=
  p.instrumentId = instrument.getInstrumentId ∧ p.minute = minute

instance (instrument : Instruments) (minute : Int) :
    DecidablePred (Pricing.IsOf instrument minute) := fun _ =>
   inferInstanceAs (Decidable (_ ∧ _))

/-- `generateAllPricingForGivenDate`. The timestamp is written in whole seconds. -/
def generateAllPricingForGivenDate (date : Int) : List Pricing :=
  Instruments.values.map fun instrument => ⟨instrument.getInstrumentId, date / 1000⟩

/-! ## The two threads -/

/-- `MINUTES_IN_DAY`. -/
def minutesInDay : Nat := 1440

/-- `MINUTES_IN_HALF_DAY`. -/
def minutesInHalfDay : Nat := 720

/-- What the threads share: the calendar and the table. -/
structure World where
  cal : Int
  pricing : List Pricing
  deriving DecidableEq

/-- `insertBatchData`. -/
def World.insertBatchData (w : World) (data : List Pricing) : World :=
  { w with pricing := w.pricing ++ data }

/-- `deleteFromTableBeforeDate`. -/
def World.deleteFromTableBeforeDate (w : World) (date : Int) : World :=
  { w with pricing := w.pricing.filter fun p => ¬p.timestamp < date / 1000 }

/-- The commands of the threads. -/
inductive Command where
  /-- `cal.getTime()`. -/
  | getTime
  /-- `cal.add(Calendar.MINUTE, 1)`. -/
  | addMinute
  /-- `insertBatchData` of the candles of a date. -/
  | insertBatchData (date : Int)
  | deleteFromTableBeforeDate (date : Int)

/-- What answers a command. -/
abbrev Reply : Command → Type
  | .getTime => Int
  | _ => Unit

/-- `SQLException`. -/
inductive Failure where
  | sql
  deriving DecidableEq, Repr

/-- What a thread has done. -/
structure Private where
  /-- How often it has moved the calendar. -/
  advanced : Nat := 0
  /-- The dates whose candles it has inserted. -/
  inserted : List Int := []

/-- What a command does. -/
def act : (command : Command) → Private → World → Option (Reply command × Private × World)
  | .getTime, l, w => some (w.cal, l, w)
  | .addMinute, l, w => some ((), { l with advanced := l.advanced + 1 },
      { w with cal := w.cal + 60000 })
  | .insertBatchData date, l, w => some ((), { l with inserted := l.inserted ++ [date] },
      w.insertBatchData (generateAllPricingForGivenDate date))
  | .deleteFromTableBeforeDate date, l, w => some ((), l, w.deleteFromTableBeforeDate date)

/-- The machine of the threads. -/
def machine : Machine Command Reply Failure Private World where
  act := act
  fault := .sql

/-- A thread. -/
abbrev Task := Program Command Reply Failure

/-- Issue a command. -/
def send (command : Command) : Task (Reply command) := perform command

/-- `insertBatchData`: an exception is printed. -/
def insertBatchData (date : Int) : Task Unit :=
  tryCatch (send (.insertBatchData date)) fun _ => pure ()

/-- `deleteFromTableBeforeDate`: an exception is printed. -/
def deleteFromTableBeforeDate (date : Int) : Task Unit :=
  tryCatch (send (.deleteFromTableBeforeDate date)) fun _ => pure ()

/-- The loop of `runBackfill`, from its own calendar. -/
def fillBackwards (cal : Int) : (minutes : Nat) → Task Unit
  | 0 => pure ()
  | minutes + 1 => do
    insertBatchData cal
    fillBackwards (cal - 60000) minutes

/-- `runBackfill`. -/
def runBackfill (anchorTime : Int) (minutes : Nat) : Task Unit :=
  fillBackwards (anchorTime - 60000) minutes

/-- The body of the thread. -/
def backfillThread : Task Unit := do
  let anchorTime ← send .getTime
  runBackfill anchorTime minutesInHalfDay

/-- `doEachMinute`. -/
def doEachMinute : Task Unit := do
  let date ← send .getTime
  insertBatchData date

/-- So many iterations of `generatePricingData`, with its counter. Of the daily tasks only the
first concerns the table; `yesterday` are the dates it removes the prices before. -/
def generatePricingData (yesterday : Nat → Int) : (iterations i : Nat) → Task Unit
  | 0, _ => pure ()
  | iterations + 1, i => do
    send .addMinute
    doEachMinute
    if i + 1 > minutesInDay then
      deleteFromTableBeforeDate (yesterday iterations)
      generatePricingData yesterday iterations 0
    else generatePricingData yesterday iterations (i + 1)

/-- The first two steps of `initializePricingData`, before there is a second thread. -/
def initializePricingData (w : World) : World :=
  (w.insertBatchData (generateAllPricingForGivenDate w.cal)).deleteFromTableBeforeDate w.cal

/-- The threads. -/
inductive Worker where
  | main
  | backfill
  deriving DecidableEq, Repr

/-- The threads when the second one is started: the main loop makes so many iterations. -/
def start (t₀ : Int) (pricing : List Pricing) (yesterday : Nat → Int) (n : Nat) :
    System Worker Command Reply Failure Unit Private World where
  threads
    | .main => ⟨generatePricingData yesterday n 0, {}⟩
    | .backfill => ⟨backfillThread, {}⟩
  shared := initializePricingData ⟨t₀, pricing⟩

/-! ## Counting candles -/

/-- The candles of a list of dates. -/
def candles (dates : List Int) : List Pricing := dates.flatMap generateAllPricingForGivenDate

/-- A batch has one candle of each instrument, in its minute. -/
theorem countP_generate (instrument : Instruments) (minute date : Int) :
    (generateAllPricingForGivenDate date).countP (Pricing.IsOf instrument minute) =
      if date / 60000 = minute then 1 else 0 := by
  unfold generateAllPricingForGivenDate
  rw [List.countP_map]
  have same : date / 1000 / 60 = date / 60000 := by omega
  by_cases now : date / 60000 = minute
  · rw [if_pos now, ← Instruments.countP_values instrument]
    refine List.countP_congr fun i _ => ?_
    simp [Pricing.IsOf, Pricing.minute, same, now]
  · rw [if_neg now, List.countP_eq_zero]
    intro i _
    simp [Pricing.IsOf, Pricing.minute, same, now]

theorem countP_candles (instrument : Instruments) (minute : Int) (dates : List Int) :
    (candles dates).countP (Pricing.IsOf instrument minute) =
      dates.countP fun date => date / 60000 = minute := by
  induction dates with
  | nil => rfl
  | cons date rest ih =>
    show (generateAllPricingForGivenDate date ++ candles rest).countP _ = _
    rw [List.countP_append, ih, countP_generate, List.countP_cons]
    simp only [decide_eq_true_eq]
    omega

/-- The minutes after a date. -/
def forwards (t : Int) (n : Nat) : List Int :=
  (List.range n).map fun (k : Nat) => t + 60000 * (k + 1)

/-- The minutes before a date. -/
def backwards (t : Int) (n : Nat) : List Int :=
  (List.range n).map fun (k : Nat) => t - 60000 * (k + 1)

theorem countP_forwards (t minute : Int) (n : Nat) :
    (forwards t n).countP (fun date => date / 60000 = minute) =
      if t / 60000 < minute ∧ minute ≤ t / 60000 + n then 1 else 0 := by
  induction n with
  | zero =>
    rw [if_neg (by omega)]
    rfl
  | succ n ih =>
    have next : (t + 60000 * ((n : Int) + 1)) / 60000 = t / 60000 + n + 1 := by omega
    have split : forwards t (n + 1) = forwards t n ++ [t + 60000 * ((n : Int) + 1)] := by
      simp [forwards, List.range_succ]
    rw [split, List.countP_append, ih, List.countP_singleton, next]
    simp only [decide_eq_true_eq]
    split <;> split <;> split <;> omega

theorem countP_backwards (t minute : Int) (n : Nat) :
    (backwards t n).countP (fun date => date / 60000 = minute) =
      if t / 60000 - n ≤ minute ∧ minute < t / 60000 then 1 else 0 := by
  induction n with
  | zero =>
    rw [if_neg (by omega)]
    rfl
  | succ n ih =>
    have next : (t - 60000 * ((n : Int) + 1)) / 60000 = t / 60000 - n - 1 := by omega
    have split : backwards t (n + 1) = backwards t n ++ [t - 60000 * ((n : Int) + 1)] := by
      simp [backwards, List.range_succ]
    rw [split, List.countP_append, ih, List.countP_singleton, next]
    simp only [decide_eq_true_eq]
    split <;> split <;> split <;> omega

theorem forwards_succ (t : Int) (n : Nat) :
    forwards t (n + 1) = (t + 60000) :: forwards (t + 60000) n := by
  unfold forwards
  rw [List.range_succ_eq_map, List.map_cons, List.map_map]
  congr 1
  refine List.map_congr_left fun k _ => ?_
  show t + 60000 * ((k.succ : Int) + 1) = t + 60000 + 60000 * ((k : Int) + 1)
  omega

theorem backwards_succ (t : Int) (n : Nat) :
    backwards t (n + 1) = (t - 60000) :: backwards (t - 60000) n := by
  unfold backwards
  rw [List.range_succ_eq_map, List.map_cons, List.map_map]
  congr 1
  refine List.map_congr_left fun k _ => ?_
  show t - 60000 * ((k.succ : Int) + 1) = t - 60000 - 60000 * ((k : Int) + 1)
  omega

/-! ## What the threads do -/

section Threads

variable {t₀ : Int} {P : Int → Prop} {moves : Prop} {l l' : Private}

/-- The main thread is the only one to move the calendar, as far as it `moves`; whenever the
other one reads the calendar it meets the condition. Before the first daily clean-up nobody
deletes. Nothing fails. -/
def terms (t₀ : Int) (P : Int → Prop) (moves : Prop) :
    Worker → Terms Command Failure Private World
  | .main =>
    { assume l w := w.cal = t₀ + 60000 * l.advanced
      guard c _ := (c = .addMinute → moves) ∧ ∀ date, c ≠ .deleteFromTableBeforeDate date
      abort _ _ := False
      refusable _ _ := False }
  | .backfill =>
    { assume _ w := P w.cal
      guard c _ := c ≠ .addMinute ∧ ∀ date, c ≠ .deleteFromTableBeforeDate date
      abort _ _ := False
      refusable _ _ := False }

theorem insertBatchData_keeps (i : Worker) {date : Int} {post : Unit → Private → Prop}
    (after : post () { l with inserted := l.inserted ++ [date] }) :
    (insertBatchData date).Keeps machine (terms t₀ P moves i) post l := by
  apply keeps_tryCatch
  refine keeps_perform ?_ (fun fails => by cases i <;> exact fails.elim) ?_
  · cases i with
    | main => exact ⟨nofun, nofun⟩
    | backfill => exact ⟨nofun, nofun⟩
  · intro w reply l' w' _ acted
    cases acted
    exact after

theorem fillBackwards_keeps (minutes : Nat) (cal : Int) (l : Private) :
    (fillBackwards cal minutes).Keeps machine (terms t₀ P moves .backfill)
      (fun _ l' => l'.inserted = l.inserted ++ backwards (cal + 60000) minutes) l := by
  induction minutes generalizing cal l with
  | zero => exact (List.append_nil _).symm
  | succ n ih =>
    unfold fillBackwards
    rw [keeps_bind]
    refine insertBatchData_keeps .backfill ((ih (cal - 60000) _).mono ?_)
    intro _ l' done
    have first : cal + 60000 - 60000 = cal := by omega
    have second : cal - 60000 + 60000 = cal := by omega
    rw [backwards_succ, first, done, second, List.append_assoc]
    rfl

/-- From the calendar as the thread finds it. -/
theorem backfillThread_keeps :
    backfillThread.Keeps machine (terms t₀ P moves .backfill)
      (fun _ l' => ∃ anchorTime, P anchorTime ∧
        l'.inserted = l.inserted ++ backwards anchorTime minutesInHalfDay) l := by
  unfold backfillThread
  rw [keeps_bind]
  refine keeps_perform ⟨nofun, nofun⟩ False.elim fun w cal l' w' holds acted => ?_
  cases acted
  refine (fillBackwards_keeps minutesInHalfDay (w.cal - 60000) l).mono fun _ l' done => ?_
  have same : w.cal - 60000 + 60000 = w.cal := by omega
  exact ⟨w.cal, holds, by rw [done, same]⟩

theorem generatePricingData_keeps (yesterday : Nat → Int) (n i : Nat) (l : Private)
    (few : i + n ≤ minutesInDay) (may : 0 < n → moves) :
    (generatePricingData yesterday n i).Keeps machine (terms t₀ P moves .main)
      (fun _ l' => l'.inserted = l.inserted ++ forwards (t₀ + 60000 * l.advanced) n) l := by
  induction n generalizing i l with
  | zero => exact (List.append_nil _).symm
  | succ n ih =>
    unfold generatePricingData
    rw [keeps_bind]
    refine keeps_perform ⟨fun _ => may (by omega), nofun⟩ False.elim fun w _ l' w' _ acted => ?_
    cases acted
    unfold doEachMinute
    rw [keeps_bind, keeps_bind]
    refine keeps_perform ⟨nofun, nofun⟩ False.elim fun w _ l' w' moved acted => ?_
    cases acted
    have cal : w.cal = t₀ + 60000 * l.advanced + 60000 := by
      have : w.cal = t₀ + 60000 * ((l.advanced + 1 : Nat) : Int) := moved
      omega
    refine insertBatchData_keeps .main ?_
    have notYet : ¬i + 1 > minutesInDay := by omega
    rw [if_neg notYet]
    refine (ih (i + 1) _ (by omega) fun _ => may (by omega)).mono fun _ l' done => ?_
    have next : t₀ + 60000 * ((l.advanced + 1 : Nat) : Int) =
        t₀ + 60000 * l.advanced + 60000 := by omega
    rw [forwards_succ, done, cal]
    show (l.inserted ++ [_]) ++ forwards (t₀ + 60000 * ((l.advanced + 1 : Nat) : Int)) n = _
    rw [next, List.append_assoc]
    rfl

/-- What a run keeps: the calendar is where the main thread has moved it to, and the table has
the candles that both threads have inserted, besides those it had. -/
structure Progress (t₀ : Int) (P : Int → Prop) (base : List Pricing) (privs : Worker → Private)
    (w : World) : Prop where
  cal : w.cal = t₀ + 60000 * (privs .main).advanced
  meets : P w.cal
  rows : ∀ q : Pricing → Bool, w.pricing.countP q = base.countP q +
    (candles (privs .main).inserted).countP q + (candles (privs .backfill).inserted).countP q

theorem candles_append (dates : List Int) (date : Int) :
    candles (dates ++ [date]) = candles dates ++ generateAllPricingForGivenDate date := by
  simp [candles]

/-- Every command within the terms keeps it. -/
theorem Progress.act {base : List Pricing} {privs : Worker → Private} {w w' : World} {i : Worker}
    {c : Command} {reply : Reply c} (closed : moves → ∀ t, P t → P (t + 60000))
    (progress : Progress t₀ P base privs w) (guarded : (terms t₀ P moves i).guard c (privs i))
    (acted : machine.act c (privs i) w = some (reply, l', w')) :
    Progress t₀ P base (Function.update privs i l') w' := by
  obtain ⟨cal, meets, rows⟩ := progress
  have apart : Worker.backfill ≠ Worker.main := nofun
  cases c with
  | getTime =>
    cases acted
    rw [Function.update_eq_self]
    exact ⟨cal, meets, rows⟩
  | deleteFromTableBeforeDate date =>
    cases i with
    | main => exact absurd rfl (guarded.2 date)
    | backfill => exact absurd rfl (guarded.2 date)
  | addMinute =>
    cases i with
    | backfill => exact absurd rfl guarded.1
    | main =>
      cases acted
      refine ⟨?_, closed (guarded.1 rfl) _ meets, ?_⟩
      · rw [Function.update_self]
        show w.cal + 60000 = t₀ + 60000 * (((privs .main).advanced + 1 : Nat) : Int)
        omega
      · rw [Function.update_self, Function.update_of_ne apart]
        exact rows
  | insertBatchData date =>
    cases acted
    cases i with
    | main =>
      refine ⟨?_, meets, ?_⟩
      · rw [Function.update_self]
        exact cal
      · intro q
        have before := rows q
        rw [Function.update_self, Function.update_of_ne apart, candles_append, List.countP_append]
        show (w.pricing ++ _).countP q = _
        rw [List.countP_append]
        omega
    | backfill =>
      refine ⟨?_, meets, ?_⟩
      · rw [Function.update_of_ne apart.symm]
        exact cal
      · intro q
        have before := rows q
        rw [Function.update_self, Function.update_of_ne apart.symm, candles_append,
          List.countP_append]
        show (w.pricing ++ _).countP q = _
        rw [List.countP_append]
        omega

/-- A schedule without failing statements. -/
theorem respects_of_sound {s : System Worker Command Reply Failure Unit Private World}
    {schedule : List (Worker × Bool)} (sound : ∀ turn ∈ schedule, turn.2 = false) :
    s.Respects machine (fun _ refused _ _ _ => refused = false) schedule := by
  induction schedule generalizing s with
  | nil => trivial
  | cons turn rest ih =>
    have now := sound turn List.mem_cons_self
    exact ⟨fun _ _ _ => now, ih fun turn later => sound turn (List.mem_cons_of_mem _ later)⟩

/-- What the threads have done at their ends. -/
def Done (t₀ : Int) (n : Nat) (Q : Int → Prop) : Worker → Private → Prop
  | .main, l => l.inserted = forwards t₀ n
  | .backfill, l => ∃ anchorTime, Q anchorTime ∧
    l.inserted = backwards anchorTime minutesInHalfDay

/-- When both threads have ended they have done what they promise, and nothing else has
happened to the table. -/
theorem run_progress (P Q : Int → Prop) (moves : Prop) (closed : moves → ∀ t, P t → P (t + 60000))
    {base : List Pricing} {n : Nat} {s : System Worker Command Reply Failure Unit Private World}
    (keeps : ∀ i, (s.threads i).program.Keeps machine (terms t₀ P moves i)
      (fun _ => Done t₀ n Q i) (s.threads i).priv) (first : Progress t₀ P base s.privs s.shared)
    {schedule : List (Worker × Bool)} (sound : ∀ turn ∈ schedule, turn.2 = false)
    (ended : ∀ i, ((s.run machine schedule).threads i).program.Ended) :
    Progress t₀ P base (s.run machine schedule).privs (s.run machine schedule).shared ∧
      ∀ i, Done t₀ n Q i ((s.run machine schedule).privs i) := by
  have possible : ∀ c l w, machine.act c l w ≠ none := by
    intro c l w
    cases c <;> nofun
  obtain ⟨progress, kept⟩ := System.run_terms (t := terms t₀ P moves) (Progress t₀ P base)
    (fun _ _ progress i => by
      cases i with
      | main => exact progress.cal
      | backfill => exact progress.meets)
    (fun _ _ i c refused _ _ unrefused undone => by
      rcases undone with now | none
      · rw [unrefused] at now
        cases now
      · exact absurd none (possible _ _ _))
    (fun _ _ _ _ _ _ _ guarded _ progress acted => progress.act closed guarded acted)
    schedule keeps first (respects_of_sound sound)
  refine ⟨progress, fun i => ?_⟩
  obtain ⟨-, done⟩ := (kept i).of_ended (ended i) (by
    cases i with
    | main => exact fun _ => id
    | backfill => exact fun _ => id)
  exact done

end Threads

/-! ## The timeline -/

/-- Each instrument has one candle in every minute, from twelve hours before the start to `n`
minutes after it. -/
def Complete (t₀ : Int) (n : Nat) (pricing : List Pricing) : Prop :=
  ∀ instrument minute, t₀ / 60000 - minutesInHalfDay ≤ minute → minute ≤ t₀ / 60000 + n →
    pricing.countP (Pricing.IsOf instrument minute) = 1

/-- No candle of an instrument that was there before is of a time from the start on. -/
def Clear (t₀ : Int) (n : Nat) (pricing : List Pricing) : Prop :=
  ∀ p ∈ pricing, (∃ instrument : Instruments, p.instrumentId = instrument.getInstrumentId) →
    t₀ / 1000 ≤ p.timestamp → t₀ / 60000 + n < p.minute

/-- What is left of the candles that were there before. -/
def leftOver (t₀ : Int) (pricing : List Pricing) : List Pricing :=
  pricing.filter fun p => ¬p.timestamp < t₀ / 1000

variable {t₀ : Int} {pricing : List Pricing} {n : Nat}

theorem countP_initialize (instrument : Instruments) (minute : Int) :
    (initializePricingData ⟨t₀, pricing⟩).pricing.countP (Pricing.IsOf instrument minute) =
      (leftOver t₀ pricing).countP (Pricing.IsOf instrument minute) +
        if t₀ / 60000 = minute then 1 else 0 := by
  have kept : (generateAllPricingForGivenDate t₀).filter (fun p => ¬p.timestamp < t₀ / 1000) =
      generateAllPricingForGivenDate t₀ := by
    refine List.filter_eq_self.mpr fun p mem => ?_
    obtain ⟨i, -, rfl⟩ := List.mem_map.mp mem
    simp
  show ((pricing ++ generateAllPricingForGivenDate t₀).filter _).countP _ = _
  rw [List.filter_append, kept, List.countP_append, countP_generate]
  rfl

/-- What is left over is not older than the start. -/
theorem minute_of_leftOver {p : Pricing} (mem : p ∈ leftOver t₀ pricing) :
    p ∈ pricing ∧ t₀ / 1000 ≤ p.timestamp ∧ t₀ / 60000 ≤ p.minute := by
  obtain ⟨mem, late⟩ := List.mem_filter.mp mem
  have late := of_decide_eq_true late
  unfold Pricing.minute
  exact ⟨mem, by omega, by omega⟩

/-- The candles after a run in which the backfill has started from `anchorTime`. -/
structure Filled (t₀ anchorTime : Int) (pricing : List Pricing) (n : Nat) (w : World) : Prop where
  count : ∀ instrument minute, w.pricing.countP (Pricing.IsOf instrument minute) =
    (leftOver t₀ pricing).countP (Pricing.IsOf instrument minute) +
      (if t₀ / 60000 = minute then 1 else 0) +
      (if t₀ / 60000 < minute ∧ minute ≤ t₀ / 60000 + n then 1 else 0) +
      if anchorTime / 60000 - minutesInHalfDay ≤ minute ∧ minute < anchorTime / 60000 then 1
      else 0

theorem Progress.filled {P Q : Int → Prop} {privs : Worker → Private} {w : World}
    (progress : Progress t₀ P (initializePricingData ⟨t₀, pricing⟩).pricing privs w)
    (done : ∀ i, Done t₀ n Q i (privs i)) :
    ∃ anchorTime, Q anchorTime ∧ Filled t₀ anchorTime pricing n w := by
  have main : (privs .main).inserted = forwards t₀ n := done .main
  obtain ⟨anchorTime, anchored, backfill⟩ := done .backfill
  refine ⟨anchorTime, anchored, ⟨fun instrument minute => ?_⟩⟩
  rw [progress.rows, countP_initialize, main, backfill, countP_candles, countP_candles,
    countP_forwards, countP_backwards]

/-- From the minute of the start the timeline is complete, apart from what was left over. -/
theorem Filled.complete_iff {w : World} (filled : Filled t₀ t₀ pricing n w) :
    Complete t₀ n w.pricing ↔ Clear t₀ n pricing := by
  have one : ∀ instrument minute, t₀ / 60000 - minutesInHalfDay ≤ minute →
      minute ≤ t₀ / 60000 + n → w.pricing.countP (Pricing.IsOf instrument minute) =
        (leftOver t₀ pricing).countP (Pricing.IsOf instrument minute) + 1 := by
    intro instrument minute after before
    rw [filled.count]
    split <;> split <;> split <;> omega
  constructor
  · intro complete p mem ⟨instrument, own⟩ late
    by_contra early
    have inMinute : t₀ / 60000 ≤ p.minute := by
      unfold Pricing.minute
      omega
    have some := one instrument p.minute (by omega) (by omega)
    rw [complete instrument p.minute (by omega) (by omega)] at some
    have none : (leftOver t₀ pricing).countP (Pricing.IsOf instrument p.minute) = 0 := by omega
    refine List.countP_eq_zero.mp none p ?_ (decide_eq_true ⟨own, rfl⟩)
    exact List.mem_filter.mpr ⟨mem, decide_eq_true (by omega)⟩
  · intro clear instrument minute after before
    have none : (leftOver t₀ pricing).countP (Pricing.IsOf instrument minute) = 0 := by
      rw [List.countP_eq_zero]
      intro p mem isOf
      obtain ⟨own, rfl⟩ := of_decide_eq_true isOf
      obtain ⟨mem, late, -⟩ := minute_of_leftOver mem
      have := clear p mem ⟨instrument, own⟩ late
      omega
    rw [one instrument minute after before, none]

/-- From a later minute the first minute of the twelve hours is missing. -/
theorem Filled.not_complete {w : World} {anchorTime : Int}
    (filled : Filled t₀ anchorTime pricing n w) (late : t₀ + 60000 ≤ anchorTime) :
    ¬Complete t₀ n w.pricing := by
  intro complete
  have one := complete .easyTravel (t₀ / 60000 - minutesInHalfDay) (by omega) (by omega)
  have half : minutesInHalfDay = 720 := rfl
  have none : (leftOver t₀ pricing).countP
      (Pricing.IsOf .easyTravel (t₀ / 60000 - minutesInHalfDay)) = 0 := by
    rw [List.countP_eq_zero]
    intro p mem isOf
    obtain ⟨-, same⟩ := of_decide_eq_true isOf
    obtain ⟨-, -, after⟩ := minute_of_leftOver mem
    omega
  rw [filled.count, none] at one
  split at one <;> split at one <;> split at one <;> omega

/-! ## The schedules -/

section Schedules

variable {yesterday : Nat → Int} {schedule : List (Worker × Bool)}

/-- The whole main loop, from the first minute. -/
theorem main_keeps {P Q : Int → Prop} {moves : Prop} (few : n ≤ minutesInDay)
    (may : 0 < n → moves) :
    (generatePricingData yesterday n 0).Keeps machine (terms t₀ P moves .main)
      (fun _ => Done t₀ n Q .main) {} := by
  refine (generatePricingData_keeps yesterday n 0 {} (by omega) may).mono fun _ l done => ?_
  have same : t₀ + 60000 * ((0 : Nat) : Int) = t₀ := by omega
  rw [same] at done
  exact done.trans (List.nil_append _)

theorem backfill_keeps {P : Int → Prop} {moves : Prop} :
    backfillThread.Keeps machine (terms t₀ P moves .backfill) (fun _ => Done t₀ n P .backfill)
      {} := by
  refine backfillThread_keeps.mono fun _ l kept => ?_
  obtain ⟨anchorTime, anchored, done⟩ := kept
  exact ⟨anchorTime, anchored, done.trans (List.nil_append _)⟩

/-- A main loop without iterations leaves the calendar alone. -/
theorem filled_of_no_iteration (sound : ∀ turn ∈ schedule, turn.2 = false)
    (ended : ∀ i, (((start t₀ pricing yesterday 0).run machine schedule).threads i).program.Ended) :
    Filled t₀ t₀ pricing 0 ((start t₀ pricing yesterday 0).run machine schedule).shared := by
  have keeps : ∀ i, ((start t₀ pricing yesterday 0).threads i).program.Keeps machine
      (terms t₀ (· = t₀) False i) (fun _ => Done t₀ 0 (· = t₀) i)
      ((start t₀ pricing yesterday 0).threads i).priv := by
    intro i
    cases i with
    | main => exact main_keeps (by omega) (by omega)
    | backfill => exact backfill_keeps
  have first : Progress t₀ (· = t₀) (initializePricingData ⟨t₀, pricing⟩).pricing
      (start t₀ pricing yesterday 0).privs (start t₀ pricing yesterday 0).shared := by
    refine ⟨?_, rfl, fun q => rfl⟩
    show t₀ = t₀ + 60000 * ((0 : Nat) : Int)
    omega
  obtain ⟨progress, done⟩ := run_progress _ _ False False.elim keeps first sound ended
  obtain ⟨_, rfl, filled⟩ := progress.filled done
  exact filled

/-- The thread that runs first starts from the minute of the start. -/
theorem filled_of_prompt (few : n ≤ minutesInDay) (sound : ∀ turn ∈ schedule, turn.2 = false)
    (ended : ∀ i, (((start t₀ pricing yesterday n).run machine
      ((.backfill, false) :: schedule)).threads i).program.Ended) :
    Filled t₀ t₀ pricing n ((start t₀ pricing yesterday n).run machine
      ((.backfill, false) :: schedule)).shared := by
  have keeps : ∀ i, (((start t₀ pricing yesterday n).step machine (.backfill, false)).threads
      i).program.Keeps machine (terms t₀ (fun _ => True) True i) (fun _ => Done t₀ n (· = t₀) i)
      (((start t₀ pricing yesterday n).step machine (.backfill, false)).threads i).priv := by
    intro i
    cases i with
    | main => exact main_keeps few fun _ => trivial
    | backfill =>
      refine (fillBackwards_keeps minutesInHalfDay (t₀ - 60000) {}).mono fun _ l done => ?_
      have same : t₀ - 60000 + 60000 = t₀ := by omega
      rw [same] at done
      exact ⟨t₀, rfl, done.trans (List.nil_append _)⟩
  have first : Progress t₀ (fun _ => True) (initializePricingData ⟨t₀, pricing⟩).pricing
      ((start t₀ pricing yesterday n).step machine (.backfill, false)).privs
      ((start t₀ pricing yesterday n).step machine (.backfill, false)).shared := by
    refine ⟨?_, trivial, fun q => rfl⟩
    show t₀ = t₀ + 60000 * ((0 : Nat) : Int)
    omega
  obtain ⟨progress, done⟩ := run_progress _ _ True (fun _ _ _ => trivial) keeps first sound ended
  obtain ⟨_, rfl, filled⟩ := progress.filled done
  exact filled

/-- After the first iteration of the main loop the thread starts from a later minute. -/
theorem filled_of_late (few : n + 1 ≤ minutesInDay) (sound : ∀ turn ∈ schedule, turn.2 = false)
    (ended : ∀ i, (((start t₀ pricing yesterday (n + 1)).run machine
      ((.main, false) :: schedule)).threads i).program.Ended) :
    ∃ anchorTime, t₀ + 60000 ≤ anchorTime ∧
      Filled t₀ anchorTime pricing (n + 1) ((start t₀ pricing yesterday (n + 1)).run machine
        ((.main, false) :: schedule)).shared := by
  have keeps : ∀ i, (((start t₀ pricing yesterday (n + 1)).step machine (.main, false)).threads
      i).program.Keeps machine (terms t₀ (t₀ + 60000 ≤ ·) True i)
      (fun _ => Done t₀ (n + 1) (t₀ + 60000 ≤ ·) i)
      (((start t₀ pricing yesterday (n + 1)).step machine (.main, false)).threads i).priv := by
    intro i
    cases i with
    | backfill => exact backfill_keeps
    | main =>
      have whole : (generatePricingData yesterday (n + 1) 0).Keeps machine
          (terms t₀ (t₀ + 60000 ≤ ·) True .main)
          (fun _ => Done t₀ (n + 1) (t₀ + 60000 ≤ ·) .main) {} := main_keeps few fun _ => trivial
      refine whole.2.2 (start t₀ pricing yesterday (n + 1)).shared () _ _ ?_ rfl
      show t₀ = t₀ + 60000 * ((0 : Nat) : Int)
      omega
  have first : Progress t₀ (t₀ + 60000 ≤ ·) (initializePricingData ⟨t₀, pricing⟩).pricing
      ((start t₀ pricing yesterday (n + 1)).step machine (.main, false)).privs
      ((start t₀ pricing yesterday (n + 1)).step machine (.main, false)).shared := by
    refine ⟨?_, Int.le_refl _, fun q => rfl⟩
    show t₀ + 60000 = t₀ + 60000 * ((1 : Nat) : Int)
    omega
  obtain ⟨progress, done⟩ := run_progress _ _ True (fun _ _ _ => by omega) keeps first sound ended
  exact progress.filled done

theorem insertBatchData_within (date : Int) : (insertBatchData date).Within 1 :=
  within_attempt fun _ => trivial

theorem fillBackwards_within (minutes : Nat) (cal : Int) :
    (fillBackwards cal minutes).Within minutes := by
  induction minutes generalizing cal with
  | zero => trivial
  | succ n ih =>
    unfold fillBackwards
    exact (within_bind (insertBatchData_within cal) fun _ => ih _).mono (by omega)

theorem backfillThread_within : backfillThread.Within 721 := by
  intro reply
  cases reply with
  | ok anchorTime => exact fillBackwards_within minutesInHalfDay _
  | error e => trivial

theorem oneIteration_within : (generatePricingData yesterday 1 0).Within 3 := by
  have minute : doEachMinute.Within 2 := by
    refine within_bind (j := 1) (k := 1) (fun reply => ?_) insertBatchData_within
    cases reply <;> trivial
  refine within_bind (j := 1) (k := 2) (fun reply => ?_) fun _ => ?_
  · cases reply <;> trivial
  · refine within_bind (j := 2) (k := 0) minute fun _ => ?_
    have notYet : ¬0 + 1 > minutesInDay := by decide
    rw [if_neg notYet]
    trivial

/-- One thread to its end, then the other. -/
theorem ended_one_by_one {s : System Worker Command Reply Failure Unit Private World}
    {i j : Worker} {k k' : Nat} (first : (s.threads i).program.Within k)
    (second : (s.threads j).program.Within k') (both : ∀ w, w = i ∨ w = j) (apart : i ≠ j)
    (w : Worker) : ((s.run machine (List.replicate k (i, false) ++
      List.replicate k' (j, false))).threads w).program.Ended := by
  obtain ⟨ended, wait⟩ := System.run_replicate (m := machine) first false
  rw [← wait j apart.symm] at second
  obtain ⟨ended', wait'⟩ := System.run_replicate (m := machine) second false
  rw [System.run, List.foldl_append]
  rcases both w with rfl | rfl
  · rw [← wait' w apart] at ended
    exact ended
  · exact ended'

theorem sound_one_by_one {i j : Worker} {k k' : Nat} :
    ∀ turn ∈ List.replicate k (i, false) ++ List.replicate k' (j, false), turn.2 = false := by
  intro turn mem
  rcases List.mem_append.mp mem with now | now
  · rw [List.eq_of_mem_replicate now]
  · rw [List.eq_of_mem_replicate now]

theorem head_one_by_one {i : Worker} {k : Nat} (rest : List (Worker × Bool)) :
    (List.replicate (k + 1) (i, false) ++ rest).head?.map Prod.fst = some i := rfl

/-- The threads of one iteration, one after the other. -/
theorem ended_of_prompt (w : Worker) :
    (((start t₀ pricing yesterday 1).run machine (List.replicate 721 (.backfill, false) ++
      List.replicate 3 (.main, false))).threads w).program.Ended :=
  ended_one_by_one (s := start t₀ pricing yesterday 1) backfillThread_within oneIteration_within
    (fun w => by cases w <;> simp) (by decide) w

theorem ended_of_late (w : Worker) :
    (((start t₀ pricing yesterday 1).run machine (List.replicate 3 (.main, false) ++
      List.replicate 721 (.backfill, false))).threads w).program.Ended :=
  ended_one_by_one (s := start t₀ pricing yesterday 1) oneIteration_within backfillThread_within
    (fun w => by cases w <;> simp) (by decide) w

/-- A main loop that begins first leaves the timeline incomplete. -/
theorem not_complete_of_late {k : Nat} (begins : 0 < k) (goesOn : 0 < n) (few : n ≤ minutesInDay)
    (sound : ∀ turn ∈ List.replicate k (.main, false) ++ schedule, turn.2 = false)
    (ended : ∀ i, (((start t₀ pricing yesterday n).run machine
      (List.replicate k (.main, false) ++ schedule)).threads i).program.Ended) :
    ¬Complete t₀ n ((start t₀ pricing yesterday n).run machine
      (List.replicate k (.main, false) ++ schedule)).shared.pricing := by
  obtain ⟨k, rfl⟩ : ∃ k', k = k' + 1 := ⟨k - 1, by omega⟩
  obtain ⟨n, rfl⟩ : ∃ n', n = n' + 1 := ⟨n - 1, by omega⟩
  rw [List.replicate_succ, List.cons_append] at sound ended ⊢
  obtain ⟨anchorTime, late, filled⟩ :=
    filled_of_late few (fun turn mem => sound turn (List.mem_cons_of_mem _ mem)) ended
  exact filled.not_complete late

end Schedules

/-- When the backfill and so many iterations of the main loop have ended, before the first daily
clean-up and with nothing failing, the timeline is complete just where the backfill has had the
first turn, if there are iterations, and no candle was left over. -/
theorem timeline_complete (t₀ : Int) (pricing : List Pricing) (yesterday : Nat → Int) (n : Nat)
    (few : n ≤ minutesInDay) (schedule : List (Worker × Bool))
    (sound : ∀ turn ∈ schedule, turn.2 = false)
    (ended : ∀ i, (((start t₀ pricing yesterday n).run machine schedule).threads i).program.Ended) :
    Complete t₀ n ((start t₀ pricing yesterday n).run machine schedule).shared.pricing ↔
      (n = 0 ∨ schedule.head?.map Prod.fst = some .backfill) ∧ Clear t₀ n pricing := by
  cases n with
  | zero =>
    have filled := filled_of_no_iteration sound ended
    rw [filled.complete_iff]
    simp
  | succ n =>
    cases schedule with
    | nil => exact nomatch ended .main
    | cons turn rest =>
      obtain ⟨i, refused⟩ := turn
      have now : refused = false := sound (i, refused) List.mem_cons_self
      subst now
      have later : ∀ turn ∈ rest, turn.2 = false :=
        fun turn mem => sound turn (List.mem_cons_of_mem _ mem)
      cases i with
      | backfill =>
        rw [(filled_of_prompt few later ended).complete_iff]
        simp
      | main =>
        obtain ⟨anchorTime, late, filled⟩ := filled_of_late few later ended
        refine iff_of_false (filled.not_complete late) ?_
        simp

/-- The backfill to its end and then one iteration of the main loop, over the candle of a seed. -/
theorem timeline_complete_of_prompt :
    Complete 1767225600000 1 ((start 1767225600000 [⟨1, 1767225500⟩] (fun _ => 0) 1).run machine
      (List.replicate 721 (.backfill, false) ++
        List.replicate 3 (.main, false))).shared.pricing := by
  refine (timeline_complete _ _ _ _ (by decide) _ sound_one_by_one ended_of_prompt).mpr ⟨?_, ?_⟩
  · exact Or.inr (head_one_by_one (k := 720) _)
  · intro p mem _ late
    rw [List.mem_singleton.mp mem] at late
    exact absurd late (by decide)

/-- One iteration of the main loop before the thread begins: the minute of the start has two
candles of each instrument, and the first minute of the twelve hours has none. -/
theorem late_backfill_leaves_hole :
    let schedule : List (Worker × Bool) :=
      List.replicate 3 (.main, false) ++ List.replicate 721 (.backfill, false)
    let s := (start 1767225600000 [] (fun _ => 0) 1).run machine schedule
    (∀ turn ∈ schedule, turn.2 = false) ∧ (∀ i, (s.threads i).program.Ended) ∧
      Clear 1767225600000 1 [] ∧ ¬Complete 1767225600000 1 s.shared.pricing := by
  refine ⟨sound_one_by_one, ended_of_late, nofun, ?_⟩
  exact not_complete_of_late (by decide) (by decide) (by decide) sound_one_by_one ended_of_late

end EasyTrade.Content.Timeline
