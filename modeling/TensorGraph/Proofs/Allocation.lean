/-
# Allocation is all or nothing

A device may serve a request, refuse it, or answer with storage of any length.  What a
computation asks of it is read off a device that keeps a record (`RecordedDevice`); to
keep one changes nothing else (`hom_device`).

    all requests served     storage for every buffer in the order of the plan, and
                            nothing is returned
    one request refused     the requests up to it; then all that was held is returned
    one storage too short   the same, and the short storage is returned before the rest

`Acquisition` says this of the loop over the buffers, with one case for each thing that
can come of a request.  What it says of a whole plan, `Allocation`, follows by induction.
-/
import TensorGraph.Device.Rationed
import TensorGraph.Proofs.Balance

namespace TensorGraph

variable {α δ : Type}

/-! ## A device that keeps a record -/

/-- Something that a device was asked for, and what came of it. -/
inductive Event (α : Type) where
  | requested (b : Buffer) (answer : Except Error (Storage α))
  | returned (b : Buffer) (s : Storage α)
  | waited (answer : Except Error Unit)

/-- A device together with everything that it has been asked for. -/
structure RecordedDevice (δ α : Type) where
  device : δ
  events : List (Event α)

instance [Device δ α] : Device (RecordedDevice δ α) α where
  name d := Device.name d.device
  allocate d b :=
    let (device, answer) := Device.allocate d.device b
    (⟨device, d.events ++ [.requested b answer]⟩, answer)
  free d b s := ⟨Device.free d.device b s, d.events ++ [.returned b s]⟩
  synchronize d :=
    let (device, answer) := Device.synchronize d.device
    (⟨device, d.events ++ [.waited answer]⟩, answer)

theorem hom_device [Device δ α] : Device.Hom (RecordedDevice.device (δ := δ) (α := α)) :=
  ⟨fun _ _ => rfl, fun _ _ _ => rfl, fun _ => rfl⟩

namespace Computation

/-- Requests that were served with the given storage. -/
def requests (held : List (Buffer × Storage α)) : List (Event α) :=
  held.map fun (b, s) => .requested b (.ok s)

/-- Storage that is returned, each with the buffer that it was asked for. -/
def returns (held : List (Buffer × Storage α)) : List (Event α) :=
  held.map fun (b, s) => .returned b s

/-! ## The loop over the buffers -/

/-- What comes of asking for the storage of some buffers when some is held already: the
events, and the answer. -/
inductive Acquisition : List (Buffer × Storage α) → List Buffer → List (Event α) →
    Except Error (List (Buffer × Storage α)) → Prop
  | done (held : List (Buffer × Storage α)) : Acquisition held [] [] (.ok held)
  | refused (held : List (Buffer × Storage α)) (b : Buffer) (rest : List Buffer) (e : Error) :
      Acquisition held (b :: rest) (.requested b (.error e) :: returns held) (.error e)
  | short (held : List (Buffer × Storage α)) (b : Buffer) (rest : List Buffer) (s : Storage α) :
      s.size < b.elements →
      Acquisition held (b :: rest) (.requested b (.ok s) :: .returned b s :: returns held)
        (.error (.allocation b.name (.shortStorage s.size b.elements)))
  | served {held : List (Buffer × Storage α)} {b : Buffer} {rest : List Buffer} {s : Storage α}
      {events : List (Event α)} {answer : Except Error (List (Buffer × Storage α))} :
      b.elements ≤ s.size → Acquisition (held ++ [(b, s)]) rest events answer →
      Acquisition held (b :: rest) (.requested b (.ok s) :: events) answer

section Loop

variable [Device δ α]

theorem events_giveBack (device : δ) (log : List (Event α)) (held : List (Buffer × Storage α)) :
    (giveBack (⟨device, log⟩ : RecordedDevice δ α) held).events = log ++ returns held := by
  induction held generalizing device log with
  | nil => exact (List.append_nil _).symm
  | cons entry rest ih =>
      obtain ⟨b, s⟩ := entry
      have hrest := ih (Device.free device b s) (log ++ [.returned b s])
      rw [List.append_assoc] at hrest
      exact hrest

/-- Every run of the loop is one of the acquisitions. -/
theorem acquire_recorded (buffers : List Buffer) (device : δ) (log : List (Event α))
    (held : List (Buffer × Storage α)) :
    ∃ events,
      (acquire (⟨device, log⟩ : RecordedDevice δ α) held buffers).1.events = log ++ events ∧
      Acquisition held buffers events
        (acquire (⟨device, log⟩ : RecordedDevice δ α) held buffers).2 := by
  induction buffers generalizing device log held with
  | nil => exact ⟨[], (List.append_nil _).symm, .done held⟩
  | cons b rest ih =>
      have hrequest : Device.allocate (⟨device, log⟩ : RecordedDevice δ α) b
          = (⟨(Device.allocate device b).1, log ++ [.requested b (Device.allocate device b).2]⟩,
              (Device.allocate device b).2) := rfl
      rw [acquire, hrequest]
      rcases Device.allocate device b with ⟨device', e | s⟩
      · dsimp only
        refine ⟨_, ?_, .refused held b rest e⟩
        rw [events_giveBack, List.append_assoc]
        rfl
      · dsimp only
        split
        · rename_i hlen
          obtain ⟨events, hevents, hrest⟩ :=
            ih device' (log ++ [.requested b (.ok s)]) (held ++ [(b, s)])
          refine ⟨_, ?_, .served hlen hrest⟩
          rw [hevents, List.append_assoc]
          rfl
        · rename_i hshort
          refine ⟨_, ?_, .short held b rest s (Nat.lt_of_not_le hshort)⟩
          refine (events_giveBack (Device.free device' b s)
            (log ++ [.requested b (.ok s)] ++ [.returned b s]) held).trans ?_
          rw [List.append_assoc, List.append_assoc]
          rfl

end Loop

/-! ## All buffers of a plan -/

/-- Storage that is long enough is held for each of the buffers, in their order. -/
structure Serves (held : List (Buffer × Storage α)) (buffers : List Buffer) : Prop where
  buffers_eq : held.map (·.1) = buffers
  enough : ∀ e ∈ held, e.1.elements ≤ e.2.size

theorem Serves.cons {held : List (Buffer × Storage α)} {buffers : List Buffer} {b : Buffer}
    {s : Storage α} (hlen : b.elements ≤ s.size) (h : Serves held buffers) :
    Serves ((b, s) :: held) (b :: buffers) :=
  ⟨congrArg (b :: ·) h.buffers_eq, List.forall_mem_cons.mpr ⟨hlen, h.enough⟩⟩

/-- What goes wrong with one buffer, and the error that tells of it: the request is
refused, or the storage is too short and returned at once. -/
inductive Shortfall (b : Buffer) : List (Event α) → Error → Prop
  | refused (e : Error) : Shortfall b [.requested b (.error e)] e
  | short (s : Storage α) : s.size < b.elements →
      Shortfall b [.requested b (.ok s), .returned b s]
        (.allocation b.name (.shortStorage s.size b.elements))

/-- A loop that succeeds has asked for all buffers and returned nothing. -/
theorem Acquisition.served_all {held all : List (Buffer × Storage α)} {buffers : List Buffer}
    {events : List (Event α)} {answer : Except Error (List (Buffer × Storage α))}
    (h : Acquisition held buffers events answer) (hok : answer = .ok all) :
    ∃ new, all = held ++ new ∧ Serves new buffers ∧ events = requests new := by
  induction h with
  | done held =>
      cases hok
      exact ⟨[], (List.append_nil _).symm, ⟨rfl, nofun⟩, rfl⟩
  | refused | short => cases hok
  | @served held b rest s events answer hlen _ ih =>
      obtain ⟨new, rfl, hnew, rfl⟩ := ih hok
      exact ⟨(b, s) :: new, by rw [List.append_assoc]; rfl, hnew.cons hlen, rfl⟩

/-- A loop that fails has asked for the buffers up to the one that fails, and returned
what is held by then. -/
theorem Acquisition.stopped {held : List (Buffer × Storage α)} {buffers : List Buffer}
    {events : List (Event α)} {answer : Except Error (List (Buffer × Storage α))} {e : Error}
    (h : Acquisition held buffers events answer) (hfailed : answer = .error e) :
    ∃ new served b rest shortfall, buffers = served ++ b :: rest ∧ Serves new served ∧
      Shortfall b shortfall e ∧ events = requests new ++ shortfall ++ returns (held ++ new) := by
  induction h with
  | done => cases hfailed
  | refused held b rest e =>
      cases hfailed
      refine ⟨[], [], b, rest, _, rfl, ⟨rfl, nofun⟩, .refused e, ?_⟩
      rw [List.append_nil]
      rfl
  | short held b rest s hshort =>
      cases hfailed
      refine ⟨[], [], b, rest, _, rfl, ⟨rfl, nofun⟩, .short s hshort, ?_⟩
      rw [List.append_nil]
      rfl
  | @served held b rest s events answer hlen _ ih =>
      obtain ⟨new, served, b', rest', shortfall, rfl, hnew, hshort, rfl⟩ := ih hfailed
      refine ⟨(b, s) :: new, b :: served, b', rest', shortfall, rfl, hnew.cons hlen, hshort, ?_⟩
      rw [List.append_assoc held]
      rfl

/-- What comes of allocating an unallocated computation: the events, the computation
afterwards, and the answer. -/
inductive Allocation (c : Computation α) : List (Event α) → Computation α → Except Error Unit → Prop
  | obtained (held : List (Buffer × Storage α)) : Serves held c.plan.buffers.toList →
      Allocation c (requests held)
        { c with memory := (held.map (·.2)).toArray, phase := .allocated } (.ok ())
  | abandoned (held : List (Buffer × Storage α)) (served rest : List Buffer) (b : Buffer)
      (shortfall : List (Event α)) (e : Error) :
      c.plan.buffers.toList = served ++ b :: rest → Serves held served → Shortfall b shortfall e →
      Allocation c (requests held ++ shortfall ++ returns held) c (.error e)

section Allocate

variable [Device δ α]

/-- Allocation either obtains storage for the whole plan, or returns all that it had. -/
theorem allocate_recorded {c : Computation α} (hph : c.phase = .unallocated) (device : δ) :
    Allocation c (c.allocate (⟨device, []⟩ : RecordedDevice δ α)).2.1.events
      (c.allocate (⟨device, []⟩ : RecordedDevice δ α)).1
      (c.allocate (⟨device, []⟩ : RecordedDevice δ α)).2.2 := by
  obtain ⟨events, hevents, hloop⟩ := acquire_recorded c.plan.buffers.toList device [] []
  rw [List.nil_append] at hevents
  rw [allocate, hph]
  revert hevents hloop
  rcases acquire (⟨device, []⟩ : RecordedDevice δ α) [] c.plan.buffers.toList with ⟨d, e | held⟩
  · rintro rfl hloop
    obtain ⟨held, served, b, rest, shortfall, hsplit, hserves, hshort, hevents⟩ :=
      hloop.stopped rfl
    dsimp only
    rw [hevents]
    exact .abandoned held served rest b shortfall e hsplit hserves hshort
  · rintro rfl hloop
    obtain ⟨held, rfl, hserves, hevents⟩ := hloop.served_all rfl
    dsimp only
    rw [hevents]
    exact .obtained held hserves

/-- In every other phase allocation is over before a device is asked for anything. -/
theorem allocate_of_ne {c : Computation α} (hph : c.phase ≠ .unallocated) (device : δ) :
    ∃ answer, c.allocate device = (c, device, answer) := by
  rw [allocate]
  cases hc : c.phase with
  | unallocated => exact absurd hc hph
  | allocated | populated | ready | released => exact ⟨_, rfl⟩

variable [Element α]

/-- A computation that was bound to any plan, after any calls, is allocated on any device.

* When it is unallocated it has no storage, and either storage that is long enough is
  obtained for all buffers, in the order of the plan, and none is returned; or the error
  is that of the first buffer that fails, nothing is asked for after it, all storage
  obtained by then is returned, each with the buffer that it was asked for, and the
  computation is what it was.
* Otherwise the device is asked for nothing.
* A failure leaves no trace in the computation, so it may be allocated again. -/
theorem allocate_all_or_nothing {g : Graph α} {p : Plan} {seed : UInt64} {c₀ : Computation α}
    (hbind : bind g p seed = .ok c₀) (calls : List (Call α δ)) (device : δ) :
    ∃ c' device' answer events,
      (c₀.after calls).allocate device = (c', device', answer) ∧
      (c₀.after calls).allocate (⟨device, []⟩ : RecordedDevice δ α)
        = (c', ⟨device', events⟩, answer) ∧
      ((c₀.after calls).phase = .unallocated →
        (c₀.after calls).memory = #[] ∧ Allocation (c₀.after calls) events c' answer) ∧
      ((c₀.after calls).phase ≠ .unallocated →
        events = [] ∧ c' = c₀.after calls ∧ device' = device) ∧
      ∀ e, answer = .error e → c₀.after (calls ++ [.allocate device]) = c₀.after calls := by
  have hstanding := after_standing (standing_of_bind hbind).1 calls
  generalize hlast : c₀.after (calls ++ [.allocate device]) = last
  rw [after_concat] at hlast
  revert hlast hstanding
  generalize c₀.after calls = c
  intro hstanding hlast
  have hplain := allocate_hom hom_device c (⟨device, []⟩ : RecordedDevice δ α)
  have hunallocated := fun hph => allocate_recorded (c := c) hph device
  have hother := fun hph => allocate_of_ne (c := c) hph (⟨device, []⟩ : RecordedDevice δ α)
  revert hplain hunallocated hother
  rcases c.allocate (⟨device, []⟩ : RecordedDevice δ α) with ⟨c', ⟨device', events⟩, answer⟩
  intro hplain hunallocated hother
  have hperform : last = c' := hlast.symm.trans (congrArg Prod.fst hplain)
  refine ⟨c', device', answer, events, hplain, rfl, fun hph => ?_, fun hph => ?_, fun e he => ?_⟩
  · exact ⟨hstanding.detached (by rw [hph]; rfl), hunallocated hph⟩
  · obtain ⟨_, hsame⟩ := hother hph
    cases hsame
    exact ⟨rfl, rfl, rfl⟩
  · rw [hperform]
    by_cases hph : c.phase = .unallocated
    · subst he
      cases hunallocated hph with
      | abandoned => rfl
    · obtain ⟨_, hsame⟩ := hother hph
      cases hsame
      rfl

end Allocate

end Computation

namespace Specimen

/-- A device on which the storage of the second buffer of `quotient` comes out too short. -/
def scarce : RationedDevice UInt8 := ⟨.plain, none, none, some "variable_1"⟩

/-- Both storages that were obtained are returned, and the computation is what it was. -/
theorem quotient_scarce : ∃ d events,
    quotient.compiled.allocate (⟨scarce, []⟩ : RecordedDevice (RationedDevice UInt8) UInt8)
      = (quotient.compiled, ⟨d, events⟩, .error (.allocation "variable_1" (.shortStorage 1 2))) ∧
    Computation.Allocation quotient.compiled events quotient.compiled
      (.error (.allocation "variable_1" (.shortStorage 1 2))) ∧
    d.host.liveBytes = 0 := by
  obtain ⟨p, _, hbind⟩ := Except.bind_eq_ok.mp quotient.slice_compiles.compiled
  obtain ⟨c', d, answer, events, hplain, hrecorded, hunallocated, _, hkept⟩ :=
    Computation.allocate_all_or_nothing hbind ([] : List (Call UInt8 (RationedDevice UInt8))) scarce
  have hanswer : answer = .error (.allocation "variable_1" (.shortStorage 1 2)) :=
    (congrArg (·.2.2) hplain).symm.trans rfl
  have hsame : c' = quotient.compiled := (congrArg Prod.fst hplain).symm.trans (hkept _ hanswer)
  subst hanswer hsame
  exact ⟨d, events, hrecorded, (hunallocated rfl).2,
    (congrArg (·.2.1.host.liveBytes) hplain).symm.trans rfl⟩

end Specimen
end TensorGraph
