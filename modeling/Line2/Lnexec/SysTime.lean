import Line2.Library.Memory

/-! `sys_time.c`: the system time as a FILETIME, taken to local time by the host's time
zone and then to seconds since 1970. -/
namespace Line2.Lnexec
open Library.Memory

structure FileTime where
  dwLowDateTime : Word
  dwHighDateTime : Word

/-- The LARGE_INTEGER of the two halves. -/
def FileTime.quadPart (Ft : FileTime) : BitVec 64 := Ft.dwHighDateTime ++ Ft.dwLowDateTime

/-- 1970 in 100 ns units since 1601. -/
def TICKS_TO_1970 : Int := 116444736000000000

def TICKS_PER_SEC : Int := 10000000

def rtlSystemTimeToLocalTime (SystemTime bias : BitVec 64) : BitVec 64 := SystemTime - bias

/-- Seconds that take more than 32 bits are not stored. -/
def rtlTimeToSecondsSince1970 (Time : BitVec 64) : Option Word :=
  let seconds := (Time.toInt - TICKS_TO_1970).tdiv TICKS_PER_SEC
  if 0 ≤ seconds ∧ seconds < 0x100000000 then some (BitVec.ofInt 32 seconds) else none

/-- One call: its argument, the clock and the time-zone bias that it finds, and what is on
the stack where Result will be. -/
structure TimeCall where
  t : Addr
  Ft : FileTime
  bias : BitVec 64
  stale : Word

def sysTime (c : TimeCall) (m : Mem) : Int × Mem :=
  let Time := rtlSystemTimeToLocalTime c.Ft.quadPart c.bias
  let Result := (rtlTimeToSecondsSince1970 Time).getD c.stale
  (Result.toInt,if c.t = 0#32 then m else write32 m c.t Result)

/-- The results of calls one after another. -/
def timeRun : Mem → List TimeCall → List Int
  | _, [] => []
  | m, c :: calls => (sysTime c m).1 :: timeRun (sysTime c m).2 calls

/-- Seconds since 1970 by the system's clock. -/
def TimeCall.utcSeconds (c : TimeCall) : Int :=
  (c.Ft.quadPart.toInt - TICKS_TO_1970) / TICKS_PER_SEC

/-- The clock on the host's wall, without wrapping. -/
def TimeCall.localTime (c : TimeCall) : Int := c.Ft.quadPart.toInt - c.bias.toInt

def TimeCall.localSeconds (c : TimeCall) : Int := (c.localTime - TICKS_TO_1970) / TICKS_PER_SEC

/-- A number of seconds that an int holds. -/
def FitsInt (seconds : Int) : Prop := 0 ≤ seconds ∧ seconds < 0x80000000

instance (seconds : Int) : Decidable (FitsInt seconds) := inferInstanceAs (Decidable (_ ∧ _))

/-- A call that counts right: the result is the count, and so is what it stores at a
pointer that is not NULL; the rest of memory is as it was. -/
structure Counts (c : TimeCall) (m : Mem) (seconds : Int) : Prop where
  result : (sysTime c m).1 = seconds
  stored : c.t ≠ 0#32 → (read32 (sysTime c m).2 c.t).toInt = seconds
  kept : ∀ x, (c.t = 0#32 ∨ ¬ Within c.t 4 x) → (sysTime c m).2 x = m x

/-- A local time whose count fits is taken over in full. -/
theorem local_toInt {c : TimeCall} (h : FitsInt c.localSeconds) :
    (rtlSystemTimeToLocalTime c.Ft.quadPart c.bias).toInt = c.localTime := by
  have hlo := h.1
  have hhi := h.2
  rw [rtlSystemTimeToLocalTime, BitVec.toInt_sub]
  apply Int.bmod_eq_of_le
  · simp only [TimeCall.localSeconds, TimeCall.localTime, TICKS_TO_1970, TICKS_PER_SEC] at hlo
    omega
  · simp only [TimeCall.localSeconds, TimeCall.localTime, TICKS_TO_1970, TICKS_PER_SEC] at hhi
    omega

theorem seconds_eq {c : TimeCall} (h : FitsInt c.localSeconds) :
    rtlTimeToSecondsSince1970 (rtlSystemTimeToLocalTime c.Ft.quadPart c.bias) =
      some (BitVec.ofInt 32 c.localSeconds) := by
  have hlo := h.1
  have hhi := h.2
  have hnonneg : 0 ≤ c.localTime - TICKS_TO_1970 := by
    simp only [TimeCall.localSeconds, TICKS_PER_SEC] at hlo
    omega
  simp only [rtlTimeToSecondsSince1970, local_toInt h, Int.tdiv_eq_ediv_of_nonneg hnonneg]
  exact if_pos ⟨hlo,by unfold TimeCall.localSeconds at hhi; omega⟩

/-- A call counts the seconds of local time. -/
theorem sysTime_counts_local {c : TimeCall} (h : FitsInt c.localSeconds) (m : Mem) :
    Counts c m c.localSeconds := by
  have hint : (BitVec.ofInt 32 c.localSeconds).toInt = c.localSeconds := by
    have hlo := h.1
    have hhi := h.2
    apply BitVec.toInt_ofInt_eq_self (by decide) <;> omega
  constructor
  · simp only [sysTime, seconds_eq h, Option.getD_some, hint]
  · intro ht
    simp only [sysTime, seconds_eq h, Option.getD_some, if_neg ht, read32_write32, hint]
  · intro x hx
    simp only [sysTime]
    split
    · rfl
    · rename_i ht
      exact write32_outside m c.t _ x (hx.resolve_left ht)

theorem timeRun_eq {calls : List TimeCall} (h : ∀ c ∈ calls, FitsInt c.localSeconds) (m : Mem) :
    timeRun m calls = calls.map TimeCall.localSeconds := by
  induction calls generalizing m with
  | nil => rfl
  | cons c calls ih =>
    have hhead := sysTime_counts_local (h c List.mem_cons_self) m
    have htail := ih (fun d hd => h d (List.mem_cons_of_mem _ hd)) (sysTime c m).2
    rw [timeRun, hhead.result, htail, List.map_cons]

/-- sys_time counts seconds of local time, for every clock and bias whose count fits, and
its results never go back while local time does not. -/
theorem sysTime_local (calls : List TimeCall) (m : Mem) :
    (∀ c ∈ calls, FitsInt c.localSeconds → Counts c m c.localSeconds) ∧
    ((∀ c ∈ calls, FitsInt c.localSeconds) →
      calls.Pairwise (fun c d => c.localTime ≤ d.localTime) →
      (timeRun m calls).Pairwise (· ≤ ·)) := by
  refine ⟨fun c _ h => sysTime_counts_local h m,?_⟩
  intro hfits hordered
  rw [timeRun_eq hfits, List.pairwise_map]
  refine hordered.imp ?_
  intro c d hcd
  apply Int.ediv_le_ediv (by decide)
  omega

section sample

/-- The billionth second of UTC and the one after it. The zone, two hours ahead, ends its
summer time between them. -/
def summerEnds : List TimeCall :=
  [⟨0#32,⟨0x44ff8000#32,0x01c138d1#32⟩,BitVec.ofInt 64 (-72000000000),0#32⟩,
    ⟨0#32,⟨0x45981680#32,0x01c138d1#32⟩,BitVec.ofInt 64 (-36000000000),0#32⟩]

/-- The clock advances and its counts fit; the results are not its counts, and go back. -/
theorem summerEnds_goes_back :
    summerEnds.map TimeCall.utcSeconds = [1000000000,1000000001] ∧
    summerEnds.Pairwise (fun c d => c.Ft.quadPart.toInt ≤ d.Ft.quadPart.toInt) ∧
    timeRun (fun _ => 0#8) summerEnds = [1000007200,1000003601] ∧
    ¬ (∀ c ∈ summerEnds, FitsInt c.utcSeconds → Counts c (fun _ => 0#8) c.utcSeconds) ∧
    ¬ (timeRun (fun _ => 0#8) summerEnds).Pairwise (· ≤ ·) := by
  refine ⟨by decide,by decide,by decide,?_,by decide⟩
  intro h
  have hfirst := (h _ List.mem_cons_self (by decide)).result
  exact absurd hfirst (by decide)

end sample
end Line2.Lnexec
