/-
  OraOS.Reports.Series — the series of a chart, a row for every day.

  The server groups the orders by IST day and has no row for a day without any; the browser
  steps through the window in spans of 24 hours, from whatever time of day it begins at, and
  looks up the IST day of each instant.

    * `bounds_wholeDays`, `window_wholeDays`
                         — the windows in which such steps come to each day once;
    * `fillDays_eq`      — the loop visits the days of the window, one after another;
    * `fillSeries_loses_nothing`
                         — so nothing the server counted is left out or counted twice.
-/
import OraOS.Lib.Spread
import OraOS.Reports.Reconciled

namespace OraOS.Reports

open OraOS.Api
open OraOS.Lib
open OraOS.Orders

/-! ## §1. `AnalyticsService.bounds`. -/

/-- The ranges of the analytics page. -/
inductive Range where
  | today
  | sevenDays
  | thirtyDays
  | ninetyDays
  deriving DecidableEq, Repr

/-- `istStartOfDay`. -/
def istStartOfDay (t : ℤ) : ℤ := istDay t * dayLength - istOffset

/-- `setDate(getDate() - days)` on a host whose clock is always `hostOffset` ahead of UTC. -/
def setDateBack (hostOffset t days : ℤ) : ℤ :=
  t + hostOffset - days * dayLength - hostOffset

/-- `bounds`, at the time `now`. -/
def bounds (hostOffset : ℤ) (range : Range) (now : ℤ) : Window :=
  match range with
  | .today => ⟨istStartOfDay now, now⟩
  | .sevenDays => ⟨setDateBack hostOffset now 7, now⟩
  | .thirtyDays => ⟨setDateBack hostOffset now 30, now⟩
  | .ninetyDays => ⟨setDateBack hostOffset now 90, now⟩

/-- `AnalyticsService.overview`. -/
def overview (db : Db) (hostOffset : ℤ) (range : Range) (now : ℤ) : Overview :=
  overviewBetween db (bounds hostOffset range now)

/-! ## §2. `fillSeries`. -/

/-- A day without orders. -/
def zeroDay (date : ℤ) : SeriesRow := ⟨date, 0, 0⟩

/-- The loop, from the instant `t` on. -/
def fillDays (byDate : ℤ → Option SeriesRow) (finish t : ℤ) : List SeriesRow :=
  if t ≤ finish then
    let date := istDay t
    (byDate date).getD (zeroDay date) :: fillDays byDate finish (t + dayLength)
  else []
termination_by (finish + 1 - t).toNat
decreasing_by
  unfold dayLength
  omega

/-- `fillSeries`. -/
def fillSeries (o : Overview) : Overview :=
  let byDate := mapOf (o.revenueSeries.map fun d => (d.date, d))
  { o with revenueSeries := fillDays byDate o.window.finish o.window.start }

/-! ## §3. Steps of 24 hours. -/

/-- As many spans of 24 hours fit between two instants as the day of one is after that of the
other. -/
structure WholeDays (start finish : ℤ) : Prop where
  order : start ≤ finish
  spans : (finish - start) / dayLength = istDay finish - istDay start

/-- A day later is the next day. -/
theorem istDay_add (t n : ℤ) : istDay (t + n * dayLength) = istDay t + n := by
  unfold istDay dayLength
  omega

theorem istDay_startOfDay (day : ℤ) : istDay (day * dayLength - istOffset) = day := by
  unfold istDay dayLength
  omega

/-- Days before now, at the same time of day. -/
theorem setDateBack_wholeDays (hostOffset now : ℤ) {days : ℤ} (h : 0 ≤ days) :
    WholeDays (setDateBack hostOffset now days) now := by
  have hnow : now = setDateBack hostOffset now days + days * dayLength := by
    unfold setDateBack
    omega
  -- a step of whole days moves the day number by as many
  have hday : istDay now = istDay (setDateBack hostOffset now days) + days := by
    rw [← istDay_add, ← hnow]
  generalize setDateBack hostOffset now days = start at hnow hday ⊢
  constructor
  · unfold dayLength at hnow
    omega
  · rw [hday, hnow]
    unfold dayLength
    omega

/-- **Every window of `bounds`**, on a host without daylight saving. -/
theorem bounds_wholeDays (hostOffset : ℤ) (range : Range) (now : ℤ) :
    WholeDays (bounds hostOffset range now).start (bounds hostOffset range now).finish := by
  cases range with
  | today =>
      constructor
      · show istStartOfDay now ≤ now
        -- midnight of the day is not after now
        unfold istStartOfDay istDay dayLength
        omega
      · show (now - istStartOfDay now) / dayLength = istDay now - istDay (istStartOfDay now)
        unfold istStartOfDay
        rw [istDay_startOfDay]
        unfold istDay dayLength
        omega
  | sevenDays => exact setDateBack_wholeDays hostOffset now (by decide)
  | thirtyDays => exact setDateBack_wholeDays hostOffset now (by decide)
  | ninetyDays => exact setDateBack_wholeDays hostOffset now (by decide)

/-- **Every window of IST days**, from the first instant of one to the last of another. -/
theorem window_wholeDays {fromDay toDay : Option ℤ} {w : Window}
    (h : window fromDay toDay = .ok w) : WholeDays w.start w.finish := by
  obtain ⟨first, -, h⟩ := bind_ok.mp h
  obtain ⟨last, -, h⟩ := bind_ok.mp h
  obtain ⟨⟨⟩, horder, h⟩ := bind_ok.mp h
  cases pure_ok.mp h
  refine ⟨require_ok.mp horder, ?_⟩
  dsimp only
  unfold istDay dayLength
  omega

/-- The days of the window, one after another. -/
def Window.days (w : Window) : List ℤ :=
  (List.range (istDay w.finish - istDay w.start + 1).toNat).map fun k : ℕ => istDay w.start + k

/-- **The loop visits the days** to come, one after another. -/
theorem fillDays_eq (byDate : ℤ → Option SeriesRow) (finish : ℤ) :
    ∀ (n : ℕ) (t : ℤ), (finish - t) / dayLength = istDay finish - istDay t →
      istDay finish - istDay t + 1 = n →
      fillDays byDate finish t = (List.range n).map fun k : ℕ =>
        (byDate (istDay t + k)).getD (zeroDay (istDay t + k))
  | 0, t, hspans, hn => by
      -- the cursor has left the window
      have hover : ¬ t ≤ finish := by
        unfold dayLength at hspans
        omega
      rw [fillDays, if_neg hover]
      rfl
  | n + 1, t, hspans, hn => by
      have hin : t ≤ finish := by
        unfold dayLength at hspans
        omega
      -- a day later the cursor is on the next day
      have hnext : istDay (t + dayLength) = istDay t + 1 := by
        have hone := istDay_add t 1
        rwa [one_mul] at hone
      have hrest := fillDays_eq byDate finish n (t + dayLength)
        (by
          rw [hnext]
          unfold dayLength at hspans ⊢
          omega)
        (by
          rw [hnext]
          push_cast at hn
          omega)
      rw [fillDays, if_pos hin, hrest, List.range_succ_eq_map, List.map_cons, List.map_map]
      dsimp only
      congr 1
      · simp
      · refine List.map_congr_left fun k _ => ?_
        rw [hnext, Function.comp_apply]
        push_cast
        rw [add_right_comm, add_assoc]

/-! ## §4. Nothing is lost. -/

/-- The filled series has the days of the window one after another, each row of the server as
it was and once, and the same sums. -/
structure LosesNothing (o : Overview) : Prop where
  days : (fillSeries o).revenueSeries.map (·.date) = o.window.days
  rows : ∀ r ∈ o.revenueSeries,
    (fillSeries o).revenueSeries.filter (fun r' => decide (r'.date = r.date)) = [r]
  revenue : ((fillSeries o).revenueSeries.map (·.revenueMinor)).sum
    = (o.revenueSeries.map (·.revenueMinor)).sum
  orders : ((fillSeries o).revenueSeries.map (·.orders)).sum
    = (o.revenueSeries.map (·.orders)).sum

/-- The filled series is the series spread over the days. -/
theorem fillSeries_eq {o : Overview} (hw : WholeDays o.window.start o.window.finish) :
    (fillSeries o).revenueSeries
      = spread (fun d : SeriesRow => d.date) zeroDay o.revenueSeries o.window.days := by
  have hle : istDay o.window.start ≤ istDay o.window.finish := by
    unfold istDay
    exact Int.ediv_le_ediv (by decide) (Int.add_le_add_right hw.order _)
  have hdays := fillDays_eq (mapOf (o.revenueSeries.map fun d => (d.date, d))) o.window.finish
    (istDay o.window.finish - istDay o.window.start + 1).toNat o.window.start hw.spans (by omega)
  show fillDays _ o.window.finish o.window.start = _
  rw [hdays]
  unfold spread Window.days
  rw [List.map_map]
  rfl

/-- No day is there twice. -/
theorem Window.days_nodup (w : Window) : w.days.Nodup := by
  refine List.Nodup.map ?_ List.nodup_range
  intro a b hab
  dsimp only at hab
  omega

/-- The server has a day once, and only days of the window. -/
theorem revenueSeries_dates (orders : List Order) :
    ((revenueSeries orders).map (·.date)).Perm
      (distinct (orders.map fun o => istDay o.createdAt)) := by
  have hperm := (List.perm_insertionSort (fun a b : SeriesRow => a.date ≤ b.date)
    ((groupBy (fun o : Order => istDay o.createdAt) orders).map fun g =>
      ⟨g.1, (g.2.map (·.totalMinor)).sum, g.2.length⟩)).map (·.date)
  rw [List.map_map] at hperm
  rw [← groupBy_keys]
  exact hperm

/-- **An instant of the window is on one of its days.** -/
theorem mem_days {w : Window} {t : ℤ} (hstart : w.start ≤ t) (hfinish : t ≤ w.finish) :
    istDay t ∈ w.days := by
  have hfirst : istDay w.start ≤ istDay t := by
    unfold istDay
    exact Int.ediv_le_ediv (by decide) (Int.add_le_add_right hstart _)
  have hlast : istDay t ≤ istDay w.finish := by
    unfold istDay
    exact Int.ediv_le_ediv (by decide) (Int.add_le_add_right hfinish _)
  exact List.mem_map.mpr
    ⟨(istDay t - istDay w.start).toNat, List.mem_range.mpr (by omega), by omega⟩

/-- **Nothing is lost** of what the server counts over such a window. -/
theorem losesNothing_of {w : Window} (hw : WholeDays w.start w.finish) (db : Db) :
    LosesNothing (overviewBetween db w) := by
  set orders := countedBetween db w.start w.finish with horders
  have hdates := revenueSeries_dates orders
  have hkeys : ((revenueSeries orders).map (·.date)).Nodup :=
    hdates.nodup_iff.mpr (distinct_nodup _)
  -- every day with an order is one of the days of the window
  have hcover : ∀ r ∈ revenueSeries orders, r.date ∈ w.days := by
    rw [← List.forall_mem_map (f := fun r : SeriesRow => r.date) (P := fun d => d ∈ w.days)]
    intro day hday
    obtain ⟨o, ho, rfl⟩ := List.mem_map.mp (mem_distinct.mp (hdates.mem_iff.mp hday))
    have hcounted := List.of_mem_filter ho
    simp only [Bool.and_eq_true, decide_eq_true_eq] at hcounted
    exact mem_days hcounted.2.1 hcounted.2.2
  have hfilled : (fillSeries (overviewBetween db w)).revenueSeries
      = spread (fun d : SeriesRow => d.date) zeroDay (revenueSeries orders) w.days :=
    fillSeries_eq hw
  constructor
  · rw [hfilled]
    exact spread_keys fun _ => rfl
  · intro r hr
    rw [hfilled]
    exact spread_rows (fun _ => rfl) hkeys w.days_nodup hcover hr
  · rw [hfilled]
    exact sum_spread (fun _ => rfl) hkeys w.days_nodup hcover
  · rw [hfilled]
    exact sum_spread (fun _ => rfl) hkeys w.days_nodup hcover

/-- **Filling the series loses nothing**: over every window of `bounds`, on a host without
daylight saving, and over every window of IST days, from whatever the tables hold. -/
theorem fillSeries_loses_nothing (db : Db) :
    (∀ (hostOffset : ℤ) (range : Range) (now : ℤ),
        LosesNothing (overview db hostOffset range now))
      ∧ ∀ (fromDay toDay : Option ℤ) (o : Overview), sales db fromDay toDay = .ok o →
        LosesNothing o := by
  refine ⟨fun hostOffset range now => losesNothing_of (bounds_wholeDays hostOffset range now) db,
    fun fromDay toDay o h => ?_⟩
  obtain ⟨w, hw, h⟩ := bind_ok.mp h
  cases pure_ok.mp h
  exact losesNothing_of (window_wholeDays hw) db

/-- The days before and after have no orders. -/
theorem fillSeries_lassiDay :
    ∃ o, sales (after lassiDay openBar).db (some (-1)) (some 1) = .ok o
      ∧ o.revenueSeries.map (·.date) = [0]
      ∧ (fillSeries o).revenueSeries.map (·.date) = [-1, 0, 1]
      ∧ ((fillSeries o).revenueSeries.map (·.revenueMinor)).sum = 2640 := by
  have hok : sales (after lassiDay openBar).db (some (-1)) (some 1)
      = .ok (overviewBetween (after lassiDay openBar).db ⟨-106200000, 152999999⟩) := rfl
  have hseries : (overviewBetween (after lassiDay openBar).db
      ⟨-106200000, 152999999⟩).revenueSeries = [⟨0, 2640, 2⟩] := by decide +kernel
  have hloses := (fillSeries_loses_nothing (after lassiDay openBar).db).2 _ _ _ hok
  refine ⟨_, hok, ?_, ?_, ?_⟩
  · rw [hseries]
    rfl
  · rw [hloses.days]
    rfl
  · rw [hloses.revenue, hseries]
    rfl

end OraOS.Reports
