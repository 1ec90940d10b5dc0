import Rpcpio.Client.ClientContext
import Rpcpio.Protocol.TimeoutRounding
import Rpcpio.Server.ServerContext

/-!
# The arithmetic of deadlines

A time point of `std::chrono::system_clock` and a duration are signed 64-bit numbers of nanoseconds;
sums and differences wrap around (`wrapInt64`). The server adds the duration of the header to its
clock (`storedDeadline`), the client subtracts its clock from the deadline (`deadlineFromNow`).
Neither checks the range: both are exact only for headers that end and deadlines that start within
the reach of the clock (`deadlinesExact_iff`).
-/

set_option autoImplicit false

namespace Rpcpio.Stream

open Library Protocol Server

/-- A value of `std::int64_t`. -/
def FitsInt64 (x : Int) : Prop := -2 ^ 63 ≤ x ∧ x ≤ 2 ^ 63 - 1

instance (x : Int) : Decidable (FitsInt64 x) := inferInstanceAs (Decidable (_ ∧ _))

/-- What a signed 64-bit register holds of a sum or a difference. -/
def wrapInt64 (x : Int) : Int := x.bmod (2 ^ 64)

theorem wrapInt64_of_fits {x : Int} (h : FitsInt64 x) : wrapInt64 x = x := by
  obtain ⟨hlow, hhigh⟩ := h
  apply Int.bmod_eq_of_le_mul_two <;> omega

/-! ## The server -/

/-- The deadline that `Start` stores: `std::chrono::system_clock::now() + *dur`. -/
def storedDeadline (now : Int) (req : Request) : Option Int :=
  (requestTimeout req).map fun dur : Nat => wrapInt64 (now + dur)

/-- A deadline is stored exactly when `armDeadline` announces one. -/
theorem storedDeadline_isSome_iff {now : Int} {req : Request} {ctx : ServerContext} {timer : Timer}
    (hctx : ctx.hasDeadline = false) :
    (storedDeadline now req).isSome = (armDeadline req ctx timer).1.hasDeadline := by
  rw [storedDeadline, Option.isSome_map, armDeadline]
  cases requestTimeout req with
  | none => exact hctx.symm
  | some dur => rfl

/-- The duration of a header is that of the grammar. -/
theorem requestTimeout_eq_some_iff {req : Request} {dur : Nat} :
    requestTimeout req = some dur ↔
      ∃ v, Multimap.find (text "grpc-timeout") req.header = some v ∧ IsTimeout v.value dur ∧
        0 < dur := by
  simp only [requestTimeout, Option.bind_eq_some_iff, Option.filter_eq_some_iff,
    decide_eq_true_eq, parseTimeout_eq_some_iff]

/-- Every header of the grammar ends within the reach of the clock. -/
def EndsInRange (now : Int) (req : Request) : Prop :=
  ∀ v n, Multimap.find (text "grpc-timeout") req.header = some v → IsTimeout v.value n →
    now + n ≤ 2 ^ 63 - 1

/-- The deadline of a call, if it has one, is the end of its duration and lies in the future. -/
def StoredExact (now : Int) (req : Request) : Prop :=
  ∀ dur, requestTimeout req = some dur →
    FitsInt64 (now + dur) ∧ ∃ t, storedDeadline now req = some t ∧ now < t

theorem storedExact_iff {now : Int} (hnow : 0 ≤ now) (hmax : now ≤ 2 * 10 ^ 18) (req : Request) :
    StoredExact now req ↔ EndsInRange now req := by
  constructor
  · intro h v n hv hn
    -- a header of zero is read as no timeout, and ends in range
    rcases Nat.eq_zero_or_pos n with rfl | hpos
    · omega
    · exact (h n (requestTimeout_eq_some_iff.2 ⟨v, hv, hn, hpos⟩)).1.2
  · intro h dur hdur
    obtain ⟨v, hv, hgrammar, hpos⟩ := requestTimeout_eq_some_iff.1 hdur
    have hfits : FitsInt64 (now + dur) := ⟨by omega, h v dur hv hgrammar⟩
    refine ⟨hfits, now + dur, ?_, by omega⟩
    rw [storedDeadline, hdur, Option.map_some, wrapInt64_of_fits hfits]

/-! ## The client -/

/-- `ClientContext::deadline_from_now`. -/
def deadlineFromNow (deadline : Option Int) (now : Int) : Int :=
  match deadline with
  | none => 2 ^ 63 - 1
  | some deadline => wrapInt64 (deadline - now)

/-- The status of a call that is submitted too late. -/
def deadlinePassed : Status := Status.of .deadlineExceeded (text "deadline already passed")

/-- The deadline check of `SubmitCall` and `BuildStreamingGrpcHeaders`, and the header they add. -/
def addTimeout (deadline : Option Int) (now : Int) (hdrs : HeaderMap) : Except Status HeaderMap :=
  if deadline.isSome then
    let d := deadlineFromNow deadline now
    if d ≤ 0 then .error deadlinePassed
    else
      let ts := formatTimeout d
      if ts.isEmpty then .ok hdrs
      else .ok (Multimap.emplace (text "grpc-timeout") (plain ts) hdrs)
  else .ok hdrs

theorem addTimeout_some (deadline now : Int) (hdrs : HeaderMap) :
    addTimeout (some deadline) now hdrs =
      if deadlineFromNow (some deadline) now ≤ 0 then .error deadlinePassed
      else if (formatTimeout (deadlineFromNow (some deadline) now)).isEmpty then .ok hdrs
      else .ok (Multimap.emplace (text "grpc-timeout")
        (plain (formatTimeout (deadlineFromNow (some deadline) now))) hdrs) := rfl

/-- The time left to a deadline is exact, and a deadline that has passed is rejected. -/
structure LeftExact (now deadline : Int) : Prop where
  fits : FitsInt64 (deadline - now)
  sign : deadlineFromNow (some deadline) now ≤ 0 ↔ deadline ≤ now
  rejected : deadline ≤ now → ∀ hdrs, addTimeout (some deadline) now hdrs = .error deadlinePassed

theorem leftExact_iff {now deadline : Int} (hnow : 0 ≤ now) (hd : FitsInt64 deadline) :
    LeftExact now deadline ↔ now - 2 ^ 63 ≤ deadline := by
  obtain ⟨_, hhigh⟩ := hd
  constructor
  · intro h
    have hlow := h.fits.1
    omega
  · intro h
    have hfits : FitsInt64 (deadline - now) := ⟨by omega, by omega⟩
    have hexact : deadlineFromNow (some deadline) now = deadline - now := wrapInt64_of_fits hfits
    refine ⟨hfits, by rw [hexact]; omega, ?_⟩
    intro hle hdrs
    rw [addTimeout_some, hexact, if_pos (by omega)]

/-- **A deadline that is out of reach is taken for one in the future**, and the call is submitted.
-/
theorem addTimeout_of_wrap {now deadline : Int} (hnow : 0 ≤ now) (hmax : now ≤ 2 * 10 ^ 18)
    (hd : FitsInt64 deadline) (hlow : deadline < now - 2 ^ 63) (hdrs : HeaderMap) :
    ∃ hdrs', addTimeout (some deadline) now hdrs = .ok hdrs' := by
  obtain ⟨hmin, _⟩ := hd
  have hpos : ¬ deadlineFromNow (some deadline) now ≤ 0 := by
    show ¬ (deadline - now).bmod (2 ^ 64) ≤ 0
    -- the register holds one word more than the difference
    have hword : (deadline - now).bmod (2 ^ 64) = deadline - now + 2 ^ 64 := by
      rw [← Int.add_bmod_right]
      apply Int.bmod_eq_of_le_mul_two <;> omega
    omega
  rw [addTimeout_some, if_neg hpos]
  split
  · exact ⟨hdrs, rfl⟩
  · exact ⟨_, rfl⟩

/-! ## Both ends -/

/-- The deadlines that the two ends compute are exact. -/
def DeadlinesExact (now : Int) (req : Request) (deadline : Int) : Prop :=
  StoredExact now req ∧ LeftExact now deadline

/-- **When deadlines are exact**: the header ends within the reach of the clock, and the deadline of
the client is not further behind the clock than a signed word reaches. -/
theorem deadlinesExact_iff {now deadline : Int} (hnow : 0 ≤ now) (hmax : now ≤ 2 * 10 ^ 18)
    (req : Request) (hd : FitsInt64 deadline) :
    DeadlinesExact now req deadline ↔ EndsInRange now req ∧ now - 2 ^ 63 ≤ deadline := by
  rw [DeadlinesExact, storedExact_iff hnow hmax, leftExact_iff hnow hd]

/-- A request that asks for the most hours that are read. -/
def longRequest : Request := ⟨[(text "grpc-timeout", plain (text "2562047H"))], []⟩

theorem deadlinesExact_iff_present :
    DeadlinesExact 1700000000000000000 longRequest 1700000001000000000 ↔
      EndsInRange 1700000000000000000 longRequest ∧
        (1700000000000000000 : Int) - 2 ^ 63 ≤ 1700000001000000000 :=
  deadlinesExact_iff (by decide) (by decide) longRequest (by decide)

/-- With a present clock, the longest header is stored as a deadline in the past, and the earliest
deadline of a client is submitted as one in the future. -/
theorem not_deadlinesExact :
    (∃ t, storedDeadline 1700000000000000000 longRequest = some t ∧ t < 1700000000000000000) ∧
      (∃ hdrs, addTimeout (some (-2 ^ 63)) 1700000000000000000 [] = .ok hdrs) ∧
      ¬ ∀ (now : Int) (req : Request) (deadline : Int), 0 ≤ now → now ≤ 2 * 10 ^ 18 →
        FitsInt64 deadline → DeadlinesExact now req deadline := by
  have hdur : requestTimeout longRequest = some 9223369200000000000 := by decide
  refine ⟨⟨-7523374873709551616, by rw [storedDeadline, hdur]; decide, by decide⟩, ?_, ?_⟩
  · exact addTimeout_of_wrap (by decide) (by decide) (by decide) (by decide) []
  · -- a deadline that is in reach does not help the server
    intro hall
    have h := hall 1700000000000000000 longRequest 0 (by decide) (by decide) (by decide)
    exact absurd (h.1 _ hdur).1 (by decide)

end Rpcpio.Stream
