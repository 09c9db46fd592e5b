import FlukeCda.Port.Lifetime

/-! # Attach and detach

`fluke_attach_impl` returns directly wherever an acquisition fails, and leaves
the undoing to `fluke_detach`, which the core calls after a failed attach and
when the board goes offline. Detach reads off the private data what there is to
undo; the register mappings are not among it.
-/

namespace FlukeCda.Gpib.Attach
open Port (release release_cons ENOMEM ENODEV)

def ENXIO : Int := 6
def EBUSY : Int := 16
def EINVAL : Int := 22

/-- The part of `struct resource` that names a region. -/
structure MemResource where
  start : Nat
  size : Nat
  deriving DecidableEq

/-- The fields of `fluke_private_t` that record what has been acquired, and its
own address. Pointers are the numbers of what they point to. -/
structure FlukePrivate where
  address : Nat
  dmaBuffer : Option Nat := none
  gpibIomemRes : Option MemResource := none
  iobase : Option Nat := none
  dmaPortRes : Option MemResource := none
  writeTransferCounterRes : Option MemResource := none
  writeTransferCounter : Option Nat := none
  irq : Int := 0
  dmaChannel : Option Nat := none

/-- The board's private data and what the driver holds in the kernel. -/
structure Board where
  privateData : Option FlukePrivate
  memory : Multiset Nat
  regions : Multiset MemResource
  mappings : Multiset Nat
  irqs : Multiset Int
  channels : Multiset Nat
  pseudoIrq : Bool

/-- How the acquisitions of one attach turn out. -/
structure AttachOutcomes where
  pdev : Bool
  privateData : Option Nat
  dmaBuffer : Option Nat
  resource : Nat → Option MemResource
  region : Nat → Bool
  ioremap : Nat → Option Nat
  irq : Int
  requestIrq : Int
  dmaChannel : Option Nat
  timerPending : Bool

/-- What a pointer points to, if it is set. -/
def held {α : Type} (field : Option α) : Multiset α := Multiset.ofList field.toList

def Board.addRegion (b : Board) (res : MemResource) : Board := { b with regions := res ::ₘ b.regions }
def Board.addMapping (b : Board) (address : Nat) : Board := { b with mappings := address ::ₘ b.mappings }
def Board.addIrq (b : Board) (irq : Int) : Board := { b with irqs := irq ::ₘ b.irqs }
def Board.addChannel (b : Board) (channel : Option Nat) : Board := { b with channels := held channel + b.channels }

def Board.store (b : Board) (f : FlukePrivate → FlukePrivate) : Board := { b with privateData := b.privateData.map f }

/-- The C idiom of attach: a return value that is not zero is returned at once. -/
def orReturn (first next : Board → Int × Board) (b : Board) : Int × Board :=
  if (first b).1 ≠ 0 then first b else next (first b).2

def flukeAllocatePrivate (o : AttachOutcomes) (b : Board) : Int × Board :=
  match o.privateData with
  | none => (-ENOMEM, { b with privateData := none })
  | some address =>
    let b := { b with memory := address ::ₘ b.memory, privateData := some { address } }
    match o.dmaBuffer with
    | none => (-ENOMEM, b)
    | some buffer =>
      (0, { b with memory := buffer ::ₘ b.memory, privateData := some { address, dmaBuffer := some buffer } })

def flukeGenericAttach (o : AttachOutcomes) (b : Board) : Int × Board := flukeAllocatePrivate o b

/-- One of the three memory regions: it is located, claimed and stored. -/
def claimRegion (o : AttachOutcomes) (i : Nat) (field : MemResource → FlukePrivate → FlukePrivate) (b : Board) :
    Int × Board :=
  match o.resource i with
  | none => (-ENODEV, b)
  | some res =>
    if o.region i = false then (- ENXIO, b)
    else (0, (b.addRegion res).store (field res))

/-- One of the two register mappings. -/
def ioremapNocache (o : AttachOutcomes) (i : Nat) (field : Option Nat → FlukePrivate → FlukePrivate) (b : Board) :
    Int × Board :=
  match o.ioremap i with
  | none => (-ENOMEM, b.store (field none))
  | some address => (0, (b.addMapping address).store (field (some address)))

def requestIrq (o : AttachOutcomes) (b : Board) : Int × Board :=
  if o.irq < 0 then (-EBUSY, b)
  else if o.requestIrq ≠ 0 then (o.requestIrq, b)
  else (0, (b.addIrq o.irq).store fun p => { p with irq := o.irq })

/-- Without a channel the board works without dma, so there is no error. -/
def requestDmaChannel (o : AttachOutcomes) (b : Board) : Int × Board :=
  (0, (b.addChannel o.dmaChannel).store fun p => { p with dmaChannel := o.dmaChannel })

def gpibRequestPseudoIrq (o : AttachOutcomes) (b : Board) : Int × Board :=
  if o.timerPending = true ∨ b.pseudoIrq = true then (-1, b) else (0, { b with pseudoIrq := true })

def flukeInit (o : AttachOutcomes) (b : Board) : Int × Board :=
  if (gpibRequestPseudoIrq o b).1 ≠ 0 then (- EINVAL, (gpibRequestPseudoIrq o b).2)
  else (0, (gpibRequestPseudoIrq o b).2)

/-- From the mapped registers on. -/
def attachMapped (o : AttachOutcomes) : Board → Int × Board :=
  orReturn (claimRegion o 1 fun res p => { p with dmaPortRes := some res }) <|
  orReturn (claimRegion o 2 fun res p => { p with writeTransferCounterRes := some res }) <|
  orReturn (ioremapNocache o 2 fun address p => { p with writeTransferCounter := address }) <|
  orReturn (requestIrq o) <|
  orReturn (requestDmaChannel o) <|
  flukeInit o

def flukeAttachImpl (o : AttachOutcomes) (b : Board) : Int × Board :=
  if o.pdev = false then (-ENODEV, b)
  else
    orReturn (flukeGenericAttach o)
      (orReturn (claimRegion o 0 fun res p => { p with gpibIomemRes := some res }) <|
        orReturn (ioremapNocache o 0 fun address p => { p with iobase := address }) <|
        attachMapped o) b

/-- `if(field) release(field)`, without a result where something is released that is not held. -/
def releaseField {α : Type} [DecidableEq α] (field : Option α) (table : Multiset α) : Option (Multiset α) :=
  match field with
  | some a => release a table
  | none => some table

def freeIrq (irq : Int) (irqs : Multiset Int) : Option (Multiset Int) :=
  if irq ≠ 0 then release irq irqs else some irqs

/-- The timer is stopped and the handler forgotten, whether or not there was one. -/
def gpibFreePseudoIrq (b : Board) : Board := { b with pseudoIrq := false }

def flukeGenericDetach (b : Board) : Option Board :=
  match b.privateData with
  | none => some b
  | some p => do
    let memory ← releaseField p.dmaBuffer b.memory
    let memory ← release p.address memory
    some { b with memory, privateData := none }

def flukeDetach (b : Board) : Option Board :=
  match b.privateData with
  | none => flukeGenericDetach b
  | some p => do
    let channels ← releaseField p.dmaChannel b.channels
    let b := gpibFreePseudoIrq { b with channels }
    let irqs ← freeIrq p.irq b.irqs
    let regions ← releaseField p.writeTransferCounterRes b.regions
    let regions ← releaseField p.dmaPortRes regions
    let regions ← releaseField p.gpibIomemRes regions
    flukeGenericDetach { b with irqs, regions }

/-- Attaches one after another, each followed by a detach. -/
def attachDetach : List AttachOutcomes → Board → Option Board
  | [], b => some b
  | o :: rest, b => (flukeDetach (flukeAttachImpl o b).2).bind (attachDetach rest)

/-- A board that is not attached, with nothing but some mappings and interrupts left over. -/
def Board.detached (mappings : Multiset Nat) (irqs : Multiset Int) : Board := ⟨none, 0, 0, mappings, irqs, 0, false⟩

def Board.start : Board := .detached 0 0

/-- After each detach everything acquired since the start has been released,
once, and nothing else. -/
def Accounted (calls : List AttachOutcomes) : Prop :=
  ∀ done rest, calls = done ++ rest → attachDetach done .start = some .start

/-- The attach gets as far as the first register mapping. -/
def MapsRegisters (o : AttachOutcomes) : Prop :=
  o.pdev = true ∧ o.privateData.isSome ∧ o.dmaBuffer.isSome ∧ (o.resource 0).isSome ∧ o.region 0 = true ∧
    (o.ioremap 0).isSome

/-- The interrupt that detach frees. -/
def heldIrq (irq : Int) : Multiset Int := if irq ≠ 0 then {irq} else 0

/-- A board whose private data records all it holds, but for what is left over. -/
def Board.recording (mappings : Multiset Nat) (irqs : Multiset Int) (p : FlukePrivate) (pseudoIrq : Bool) : Board where
  privateData := some p
  memory := held p.dmaBuffer + {p.address}
  regions := held p.writeTransferCounterRes + (held p.dmaPortRes + held p.gpibIomemRes)
  mappings := mappings
  irqs := heldIrq p.irq + irqs
  channels := held p.dmaChannel
  pseudoIrq := pseudoIrq

theorem releaseField_held {α : Type} [DecidableEq α] (field : Option α) (table : Multiset α) :
    releaseField field (held field + table) = some table := by
  cases field with
  | none => exact congrArg some (Multiset.zero_add table)
  | some a => exact (congrArg (release a) (Multiset.singleton_add a table)).trans (release_cons a table)

theorem releaseField_only {α : Type} [DecidableEq α] (field : Option α) : releaseField field (held field) = some 0 := by
  have rest := releaseField_held field 0
  rwa [Multiset.add_zero] at rest

theorem freeIrq_held (irq : Int) (irqs : Multiset Int) : freeIrq irq (heldIrq irq + irqs) = some irqs := by
  unfold freeIrq heldIrq
  split_ifs
  · exact (congrArg (release irq) (Multiset.singleton_add irq irqs)).trans (release_cons irq irqs)
  · exact congrArg some (Multiset.zero_add irqs)

/-- Detach undoes what the private data records, and leaves the rest. -/
theorem flukeDetach_recording (mappings : Multiset Nat) (irqs : Multiset Int) (p : FlukePrivate) (pseudoIrq : Bool) :
    flukeDetach (.recording mappings irqs p pseudoIrq) = some (.detached mappings irqs) := by
  have address : release p.address {p.address} = some 0 := release_cons p.address 0
  simp only [flukeDetach, Board.recording, releaseField_only, releaseField_held, freeIrq_held, gpibFreePseudoIrq,
    flukeGenericDetach, address, Option.bind_eq_bind, Option.bind_some]
  rfl

theorem flukeDetach_detached (mappings : Multiset Nat) (irqs : Multiset Int) :
    flukeDetach (.detached mappings irqs) = some (.detached mappings irqs) := rfl

section Steps
variable {Q : Board → Prop} {next : Board → Int × Board} {b : Board} {o : AttachOutcomes}

theorem orReturn_stops {first : Board → Int × Board} {retval : Int} {after : Board} (ran : first b = (retval, after))
    (fails : retval ≠ 0) : orReturn first next b = (retval, after) := by
  rw [orReturn, ran, if_pos fails]

theorem orReturn_goes {first : Board → Int × Board} {after : Board} (ran : first b = (0, after)) :
    orReturn first next b = next after := by
  rw [orReturn, ran, if_neg (not_not.mpr rfl)]

theorem claimRegion_ends {i : Nat} {field : MemResource → FlukePrivate → FlukePrivate} (stops : Q b)
    (goes : ∀ res, o.resource i = some res → o.region i = true →
      Q (next ((b.addRegion res).store (field res))).2) :
    Q (orReturn (claimRegion o i field) next b).2 := by
  cases located : o.resource i with
  | none =>
    have ran : claimRegion o i field b = (-ENODEV, b) := by rw [claimRegion, located]
    rwa [orReturn_stops ran (by decide)]
  | some res =>
    by_cases claimed : o.region i = true
    · have ran : claimRegion o i field b = (0, (b.addRegion res).store (field res)) := by
        simp only [claimRegion, located, claimed, reduceCtorEq, if_false]
      rw [orReturn_goes ran]
      exact goes res located claimed
    · have ran : claimRegion o i field b = (- ENXIO, b) := by
        simp only [claimRegion, located, claimed, if_true]
      rwa [orReturn_stops ran (by decide)]

theorem ioremapNocache_ends {i : Nat} {field : Option Nat → FlukePrivate → FlukePrivate}
    (stops : Q (b.store (field none)))
    (goes : ∀ address, o.ioremap i = some address →
      Q (next ((b.addMapping address).store (field (some address)))).2) :
    Q (orReturn (ioremapNocache o i field) next b).2 := by
  cases mapped : o.ioremap i with
  | none =>
    have ran : ioremapNocache o i field b = (-ENOMEM, b.store (field none)) := by rw [ioremapNocache, mapped]
    rwa [orReturn_stops ran (by decide)]
  | some address =>
    have ran : ioremapNocache o i field b =
        (0, (b.addMapping address).store (field (some address))) := by
      rw [ioremapNocache, mapped]
    rw [orReturn_goes ran]
    exact goes address mapped

theorem requestIrq_ends (stops : Q b)
    (goes : Q (next ((b.addIrq o.irq).store fun p => { p with irq := o.irq })).2) :
    Q (orReturn (requestIrq o) next b).2 := by
  by_cases negative : o.irq < 0
  · have ran : requestIrq o b = (-EBUSY, b) := if_pos negative
    rwa [orReturn_stops ran (by decide)]
  · by_cases refused : o.requestIrq ≠ 0
    · have ran : requestIrq o b = (o.requestIrq, b) := by rw [requestIrq, if_neg negative, if_pos refused]
      rwa [orReturn_stops ran refused]
    · rw [orReturn_goes (by rw [requestIrq, if_neg negative, if_neg refused])]
      exact goes

end Steps

section Recording
variable (mappings : Multiset Nat) (irqs : Multiset Int) {p : FlukePrivate} (pseudoIrq : Bool)

theorem held_some {α : Type} (a : α) : held (some a) = {a} := rfl

theorem held_none {α : Type} : held (none : Option α) = 0 := rfl

theorem recording_iomem (unset : p.gpibIomemRes = none) (res : MemResource) :
    ((Board.recording mappings irqs p pseudoIrq).addRegion res).store
      (fun p => { p with gpibIomemRes := some res }) =
    .recording mappings irqs { p with gpibIomemRes := some res } pseudoIrq := by
  simp only [Board.store, Board.addRegion, Board.recording, unset, held_none, held_some, Multiset.add_zero, Option.map_some,
    ← Multiset.singleton_add, Multiset.add_comm {res}, Multiset.add_assoc]

theorem recording_dmaPort (unset : p.dmaPortRes = none) (res : MemResource) :
    ((Board.recording mappings irqs p pseudoIrq).addRegion res).store
      (fun p => { p with dmaPortRes := some res }) =
    .recording mappings irqs { p with dmaPortRes := some res } pseudoIrq := by
  simp only [Board.store, Board.addRegion, Board.recording, unset, held_none, held_some, Multiset.zero_add, Option.map_some,
    Multiset.singleton_add, Multiset.add_cons]

theorem recording_counter (unset : p.writeTransferCounterRes = none) (res : MemResource) :
    ((Board.recording mappings irqs p pseudoIrq).addRegion res).store
      (fun p => { p with writeTransferCounterRes := some res }) =
    .recording mappings irqs { p with writeTransferCounterRes := some res } pseudoIrq := by
  simp only [Board.store, Board.addRegion, Board.recording, unset, held_none, held_some, Multiset.zero_add, Option.map_some,
    Multiset.singleton_add]

/-- An interrupt with the number 0 is not recorded. -/
theorem recording_irq (unset : p.irq = 0) (irq : Int) :
    ((Board.recording mappings irqs p pseudoIrq).addIrq irq).store (fun p => { p with irq }) =
    .recording mappings (if irq = 0 then 0 ::ₘ irqs else irqs) { p with irq } pseudoIrq := by
  have total : irq ::ₘ (heldIrq 0 + irqs) = heldIrq irq + if irq = 0 then 0 ::ₘ irqs else irqs := by
    have none : heldIrq 0 = 0 := if_neg (not_not.mpr rfl)
    by_cases zero : irq = 0
    · rw [zero, if_pos rfl, none, Multiset.zero_add, Multiset.zero_add]
    · have this_one : heldIrq irq = {irq} := if_pos zero
      rw [if_neg zero, this_one, none, Multiset.zero_add, Multiset.singleton_add]
  simp only [Board.store, Board.addIrq, Board.recording, unset, total, Option.map_some]

theorem recording_channel (unset : p.dmaChannel = none) (channel : Option Nat) :
    ((Board.recording mappings irqs p pseudoIrq).addChannel channel).store
      (fun p => { p with dmaChannel := channel }) =
    .recording mappings irqs { p with dmaChannel := channel } pseudoIrq := by
  simp only [Board.store, Board.addChannel, Board.recording, unset, held_none, Multiset.add_zero, Option.map_some]

end Recording

/-- The board records all it holds but some mappings, these among them, and interrupts. -/
def Records (mappings : Multiset Nat) (b : Board) : Prop :=
  ∃ more irqs p pseudoIrq, b = .recording (more + mappings) irqs p pseudoIrq

theorem Records.setPseudoIrq {mappings : Multiset Nat} {b : Board} (records : Records mappings b) (pseudoIrq : Bool) :
    Records mappings { b with pseudoIrq } := by
  obtain ⟨more, irqs, p, before, rfl⟩ := records
  exact ⟨more, irqs, p, pseudoIrq, rfl⟩

theorem flukeInit_records {o : AttachOutcomes} {mappings : Multiset Nat} {b : Board} (records : Records mappings b) :
    Records mappings (flukeInit o b).2 := by
  have requested : Records mappings (gpibRequestPseudoIrq o b).2 := by
    unfold gpibRequestPseudoIrq
    split_ifs
    · exact records
    · exact records.setPseudoIrq true
  unfold flukeInit
  split_ifs <;> exact requested

theorem attachMapped_records (o : AttachOutcomes) (mappings : Multiset Nat) (irqs : Multiset Int) (p : FlukePrivate)
    (pseudoIrq : Bool) (dmaPort : p.dmaPortRes = none) (counter : p.writeTransferCounterRes = none)
    (irq : p.irq = 0) (channel : p.dmaChannel = none) :
    Records mappings (attachMapped o (.recording mappings irqs p pseudoIrq)).2 := by
  have here : ∀ irqs p, Records mappings (.recording mappings irqs p pseudoIrq) :=
    fun irqs p => ⟨0, irqs, p, pseudoIrq, by rw [Multiset.zero_add]⟩
  have more : ∀ address irqs p, Records mappings (.recording (address ::ₘ mappings) irqs p pseudoIrq) :=
    fun address irqs p => ⟨{address}, irqs, p, pseudoIrq, by rw [Multiset.singleton_add]⟩
  refine claimRegion_ends (here irqs p) fun port _ _ => ?_
  rw [recording_dmaPort mappings irqs pseudoIrq dmaPort]
  refine claimRegion_ends (here irqs _) fun res _ _ => ?_
  rw [recording_counter mappings irqs pseudoIrq (p := { p with dmaPortRes := some port }) counter]
  refine ioremapNocache_ends (here irqs _) fun address _ => ?_
  let q := { p with
    dmaPortRes := some port, writeTransferCounterRes := some res, writeTransferCounter := some address }
  change Records mappings (orReturn (requestIrq o) _ (.recording (address ::ₘ mappings) irqs q pseudoIrq)).2
  refine requestIrq_ends (more address irqs q) ?_
  rw [recording_irq (address ::ₘ mappings) irqs pseudoIrq (p := q) irq, orReturn_goes (by rfl),
    recording_channel _ _ pseudoIrq (p := { q with irq := o.irq }) channel]
  exact flukeInit_records (more address _ _)

theorem recording_fresh (mappings : Multiset Nat) (irqs : Multiset Int) (address : Nat) (dmaBuffer : Option Nat) :
    Board.recording mappings irqs { address, dmaBuffer } false =
      ⟨some { address, dmaBuffer }, held dmaBuffer + {address}, 0, mappings, irqs, 0, false⟩ := by
  have none : heldIrq 0 = 0 := if_neg (not_not.mpr rfl)
  simp only [Board.recording, held_none, none, Multiset.zero_add]

/-- The private data of a board whose buffers have just been allocated. -/
def FlukePrivate.allocated (address buffer : Nat) : FlukePrivate := { address, dmaBuffer := some buffer }

theorem genericAttach_granted {o : AttachOutcomes} {address buffer : Nat} (privateData : o.privateData = some address)
    (dmaBuffer : o.dmaBuffer = some buffer) (mappings : Multiset Nat) (irqs : Multiset Int) :
    flukeGenericAttach o (.detached mappings irqs) =
      (0, .recording mappings irqs (.allocated address buffer) false) := by
  rw [FlukePrivate.allocated, recording_fresh, held_some]
  simp only [flukeGenericAttach, flukeAllocatePrivate, privateData, dmaBuffer, Multiset.singleton_add]
  rfl

theorem genericAttach_ends {o : AttachOutcomes} {Q : Board → Prop} {next : Board → Int × Board}
    {mappings : Multiset Nat} {irqs : Multiset Int} (detached : Q (.detached mappings irqs))
    (stops : ∀ p, Q (.recording mappings irqs p false))
    (goes : ∀ address buffer, o.privateData = some address → o.dmaBuffer = some buffer →
      Q (next (.recording mappings irqs (.allocated address buffer) false)).2) :
    Q (orReturn (flukeGenericAttach o) next (.detached mappings irqs)).2 := by
  cases privateData : o.privateData with
  | none =>
    have ran : flukeGenericAttach o (.detached mappings irqs) = (-ENOMEM, .detached mappings irqs) := by
      simp only [flukeGenericAttach, flukeAllocatePrivate, privateData]
      rfl
    rwa [orReturn_stops ran (by decide)]
  | some address =>
    cases dmaBuffer : o.dmaBuffer with
    | none =>
      have ran : flukeGenericAttach o (.detached mappings irqs) =
          (-ENOMEM, .recording mappings irqs { address } false) := by
        rw [recording_fresh, held_none, Multiset.zero_add]
        simp only [flukeGenericAttach, flukeAllocatePrivate, privateData, dmaBuffer]
        rfl
      rw [orReturn_stops ran (by decide)]
      exact stops _
    | some buffer =>
      rw [orReturn_goes (genericAttach_granted privateData dmaBuffer mappings irqs)]
      exact goes address buffer privateData dmaBuffer

/-- An attach that does not get to the mappings leaves nothing that is not recorded. -/
theorem attach_unmapped {o : AttachOutcomes} (before : ¬MapsRegisters o) (mappings : Multiset Nat)
    (irqs : Multiset Int) :
    (flukeAttachImpl o (.detached mappings irqs)).2 = .detached mappings irqs ∨
      ∃ p, (flukeAttachImpl o (.detached mappings irqs)).2 = .recording mappings irqs p false := by
  by_cases pdev : o.pdev = false
  · exact Or.inl (by rw [flukeAttachImpl, if_pos pdev])
  · rw [flukeAttachImpl, if_neg pdev]
    let Q : Board → Prop := fun b => b = .detached mappings irqs ∨ ∃ p, b = .recording mappings irqs p false
    have stops : ∀ p, Q (.recording mappings irqs p false) := fun p => Or.inr ⟨p, rfl⟩
    refine genericAttach_ends (Q := Q) (Or.inl rfl) stops fun address buffer privateData dmaBuffer => ?_
    refine claimRegion_ends (stops _) fun res located claimed => ?_
    rw [recording_iomem mappings irqs false (p := .allocated address buffer) rfl]
    refine ioremapNocache_ends (stops _) fun base mapped => ?_
    refine absurd ⟨?_, ?_, ?_, ?_, claimed, ?_⟩ before
    · exact Bool.not_eq_false _ ▸ pdev
    · rw [privateData]; rfl
    · rw [dmaBuffer]; rfl
    · rw [located]; rfl
    · rw [mapped]; rfl

/-- An attach that gets to the mappings leaves one that detach does not undo. -/
theorem attach_mapped {o : AttachOutcomes} (maps : MapsRegisters o) (mappings : Multiset Nat) (irqs : Multiset Int) :
    ∃ base, Records (base ::ₘ mappings) (flukeAttachImpl o (.detached mappings irqs)).2 := by
  obtain ⟨pdev, privateData, dmaBuffer, located, claimed, mapped⟩ := maps
  obtain ⟨address, privateData⟩ := Option.isSome_iff_exists.mp privateData
  obtain ⟨buffer, dmaBuffer⟩ := Option.isSome_iff_exists.mp dmaBuffer
  obtain ⟨res, located⟩ := Option.isSome_iff_exists.mp located
  obtain ⟨base, mapped⟩ := Option.isSome_iff_exists.mp mapped
  let p : FlukePrivate := { FlukePrivate.allocated address buffer with gpibIomemRes := some res, iobase := some base }
  have reached : flukeAttachImpl o (.detached mappings irqs) =
      attachMapped o (.recording (base ::ₘ mappings) irqs p false) := by
    simp only [flukeAttachImpl, pdev, reduceCtorEq, if_false]
    rw [orReturn_goes (genericAttach_granted privateData dmaBuffer mappings irqs)]
    have claim : claimRegion o 0 (fun res p => { p with gpibIomemRes := some res })
        (.recording mappings irqs (.allocated address buffer) false) =
        (0, .recording mappings irqs { FlukePrivate.allocated address buffer with gpibIomemRes := some res } false) := by
      rw [← recording_iomem mappings irqs false (p := .allocated address buffer) rfl]
      simp only [claimRegion, located, claimed, reduceCtorEq, if_false]
    rw [orReturn_goes claim, orReturn_goes (by rw [ioremapNocache, mapped])]
    rfl
  rw [reached]
  exact ⟨base, attachMapped_records o _ irqs p false rfl rfl rfl rfl⟩

theorem attachDetach_unmapped {o : AttachOutcomes} (before : ¬MapsRegisters o) (mappings : Multiset Nat)
    (irqs : Multiset Int) :
    flukeDetach (flukeAttachImpl o (.detached mappings irqs)).2 = some (.detached mappings irqs) := by
  rcases attach_unmapped before mappings irqs with same | ⟨p, same⟩
  · rw [same]
    exact flukeDetach_detached mappings irqs
  · rw [same]
    exact flukeDetach_recording mappings irqs p false

/-- Whatever is left over after attaches and detaches is mappings and interrupts. -/
theorem attachDetach_leaves (calls : List AttachOutcomes) (mappings : Multiset Nat) (irqs : Multiset Int) :
    ∃ more later, attachDetach calls (.detached mappings irqs) = some (.detached (more + mappings) later) ∧
      (more = 0 → ∀ o ∈ calls, ¬MapsRegisters o) ∧ ((∀ o ∈ calls, ¬MapsRegisters o) → more = 0 ∧ later = irqs) := by
  induction calls generalizing mappings irqs with
  | nil =>
    refine ⟨0, irqs, ?_, fun _ o absent => absurd absent List.not_mem_nil, fun _ => ⟨rfl, rfl⟩⟩
    rw [Multiset.zero_add]
    rfl
  | cons o rest ih =>
    by_cases maps : MapsRegisters o
    · obtain ⟨base, extra, others, p, pseudoIrq, attached⟩ := attach_mapped maps mappings irqs
      obtain ⟨more, later, run, -, -⟩ := ih (extra + base ::ₘ mappings) others
      refine ⟨more + (extra + {base}), later, ?_, ?_, fun none => absurd maps (none o List.mem_cons_self)⟩
      · rw [attachDetach, attached, flukeDetach_recording, Option.bind_some, run]
        simp only [Multiset.add_assoc, Multiset.singleton_add]
      · intro none
        have card := congrArg Multiset.card none
        simp only [Multiset.card_add, Multiset.card_singleton, Multiset.card_zero] at card
        omega
    · obtain ⟨more, later, run, empty, clean⟩ := ih mappings irqs
      refine ⟨more, later, ?_, ?_, ?_⟩
      · rw [attachDetach, attachDetach_unmapped maps, Option.bind_some, run]
      · intro none other member
        rcases List.mem_cons.mp member with rfl | later
        · exact maps
        · exact empty none other later
      · exact fun none => clean fun other member => none other (List.mem_cons_of_mem o member)

/-- Detach never unmaps, so the account is even as long as no attach has come to
map the registers. -/
theorem attachDetach_accounted_iff (calls : List AttachOutcomes) :
    Accounted calls ↔ ∀ o ∈ calls, ¬MapsRegisters o := by
  constructor
  · intro accounted
    obtain ⟨more, later, run, empty, -⟩ := attachDetach_leaves calls 0 0
    have even := run.symm.trans (accounted calls [] (List.append_nil calls).symm)
    have mappings : more + 0 = 0 := congrArg Board.mappings (Option.some.inj even)
    rw [Multiset.add_zero] at mappings
    exact empty mappings
  · rintro none done rest rfl
    obtain ⟨more, later, run, -, clean⟩ := attachDetach_leaves done 0 0
    obtain ⟨rfl, rfl⟩ := clean fun o member => none o (List.mem_append_left rest member)
    exact run

/-- An attach in which everything is granted. -/
def granted : AttachOutcomes :=
  ⟨true, some 1, some 2, fun i => some ⟨i, 1⟩, fun _ => true, fun i => some (i + 3), 40, 0, some 0, false⟩

theorem granted_leaks : ¬∀ calls, Accounted calls := by
  intro claim
  have maps : MapsRegisters granted := ⟨rfl, rfl, rfl, rfl, rfl, rfl⟩
  exact (attachDetach_accounted_iff [granted]).mp (claim [granted]) granted List.mem_cons_self maps

end FlukeCda.Gpib.Attach
