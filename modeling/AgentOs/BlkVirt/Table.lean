import AgentOs.BlkVirt.Control
import AgentOs.BlkVirt.HostRules

/-!
# The client table

A slot of the client table is untouched, retired, or bound to its own page and
medium.  Serving queues changes nothing but counters of attached clients.
-/

namespace AgentOs.BlkVirt

open Library Prog Ipc

/-! ## Service rounds -/

section Service

variable {A : (request : BlkOp) -> BlkOp.Ans request -> Prop}

theorem RingPermits.any (c : BlkVirtClient) : RingPermits (fun _ => True) c :=
  ⟨trivial, fun _ _ => trivial, fun _ _ _ => trivial, fun _ _ => trivial, fun _ _ _ => trivial⟩

theorem BytesPermitted.any (p : BlkPtr) (n : Nat) : BytesPermitted (fun _ => True) p n :=
  fun _ _ => ⟨trivial, fun _ => trivial⟩

theorem HostPermits.any (mediaId : UInt32) (client : BlkVirtClient) :
    HostPermits (fun _ => True) mediaId client :=
  ⟨trivial, .any _ _, .any _ _, fun _ _ _ _ _ _ => trivial, trivial⟩

theorem ServePermits.any (bound : BvClient) (v : AosBlkVirt) (c : BlkVirtClient) :
    ServePermits A (fun _ => True) (fun ctx => ctx.binding = bound) v c callBackend where
  loadReadOnly := trivial
  backend fn _ ctx req hctx haccepted := by
    cases fn
    refine ⟨trivial, ?_⟩
    exact (ensures_hostBlkBackend haccepted.1 (.any _ _)).weaken fun result hresult =>
      hresult.trans hctx
  ram _ _ _ := .of_forall fun _ => trivial

theorem ensures_pump_binding (c : BvClient) :
    Ensures A (fun _ => True) (fun result => result.2.binding = c.binding)
      (aosBlkVirtPump callBackend c.virt c) :=
  ensures_aosBlkVirtPump (fun c _ => .any c) (fun client _ => .any c.binding _ client) rfl

/-- What a service round may do to the table: counters of attached clients. -/
def Serviced (g g' : BvTable) : Prop :=
  ∀ i, (g' i).binding = (g i).binding /\ ((g i).attached = false -> g' i = g i)

theorem Serviced.refl (g : BvTable) : Serviced g g := fun _ => ⟨rfl, fun _ => rfl⟩

/-- Records with one binding agree on every field but the counters and marks. -/
theorem eq_of_binding {α : Type} (field : BvClient -> α) {c c' : BvClient}
    (hsame : c'.binding = c.binding)
    (hfield : ∀ c, field c.binding = field c := by intro; rfl) : field c' = field c := by
  rw [<- hfield c', <- hfield c, hsame]

variable {g g' : BvTable}

theorem Serviced.attached (h : Serviced g g') (i : Nat) : (g' i).attached = (g i).attached :=
  eq_of_binding BvClient.attached (h i).1

theorem Serviced.retired (h : Serviced g g') (i : Nat) : (g' i).retired = (g i).retired :=
  eq_of_binding BvClient.retired (h i).1

theorem Serviced.trans {g'' : BvTable} (hfirst : Serviced g g') (hsecond : Serviced g' g'') :
    Serviced g g'' := by
  intro i
  refine ⟨(hsecond i).1.trans (hfirst i).1, fun hfree => ?_⟩
  rw [(hsecond i).2 ((hfirst.attached i).trans hfree), (hfirst i).2 hfree]

theorem Serviced.update {i : Nat} {c : BvClient} (hattached : (g i).attached = true)
    (hc : c.binding = (g i).binding) : Serviced g (Function.update g i c) := by
  refine (Function.forall_update_iff g fun j c => c.binding = (g j).binding /\
    ((g j).attached = false -> c = g j)).mpr ⟨⟨hc, fun hfree => ?_⟩, fun _ _ => ⟨rfl, fun _ => rfl⟩⟩
  cases hfree.symm.trans hattached

theorem ensures_reportPumped (c : BvClient) (n : UInt32) :
    Ensures A (fun _ => True) (fun c' => c'.binding = c.binding) (reportPumped c n) := by
  unfold reportPumped
  split
  · exact (Ensures.of_forall (Q := fun _ => True) fun _ => trivial).bind fun _ _ => rfl
  · rfl

theorem ensures_pumpAttached (order : List Nat) (g : BvTable) :
    Ensures A (fun _ => True) (Serviced g) (pumpAttached order g) := by
  induction order generalizing g with
  | nil => exact Serviced.refl g
  | cons i rest ih =>
    unfold pumpAttached
    split
    · rename_i hattached
      refine (ensures_pump_binding (g i)).bind fun result hresult => ?_
      refine (ensures_reportPumped result.2 result.1).bind fun c hc => ?_
      have hupdate := Serviced.update hattached (hc.trans hresult)
      exact (ih _).weaken fun g' hg' => hupdate.trans hg'
    · exact ih g

theorem ensures_bvServiceFrom (passes : Nat) (g : BvTable) :
    Ensures A (fun _ => True) (Serviced g) (bvServiceFrom passes g) := by
  induction passes generalizing g with
  | zero => exact Serviced.refl g
  | succ passes ih =>
    have hskip : ∀ {α : Type} {program : BlkM α},
        Ensures A (fun _ => True) (fun _ => True) program := .of_forall fun _ => trivial
    refine hskip.bind fun _ _ => hskip.bind fun _ _ => ?_
    refine (ensures_pumpAttached slots g).bind fun g' hg' => ?_
    refine hskip.bind fun _ _ => hskip.bind fun _ _ => hskip.bind fun _ _ => ?_
    refine hskip.bind fun needed _ => ?_
    cases needed with
    | true => exact (ih g').weaken fun g'' hg'' => hg'.trans hg''
    | false => exact hg'

theorem ensures_bvService (g : BvTable) : Ensures A (fun _ => True) (Serviced g) (bvService g) :=
  ensures_bvServiceFrom 4 g

end Service

/-! ## Client records -/

/-- An attached client: its queues are the ones of its own page, its medium is its
own, and the pump serves it alone. -/
structure Bound (i : Nat) (c : BvClient) : Prop where
  slot : i < aosBlkMaxClients
  attached : c.attached = true
  live : c.retired = false
  clientId : c.clientId = .ofNat i
  mediaId : c.mediaId = .ofNat i
  notify : c.vmmNotify ≠ 0
  queue : aosBlkClientBind shmem (.ofNat i) c.q = c.q
  media : c.q.mediaBlocks ≠ 0
  clients : c.virt.clients = [c.q]
  medium : (c.hw = true /\ c.virt.backend = some .hostBlkBackend) \/
    (c.hw = false /\ c.virt.backend = none /\
      c.q = aosBlkClientSetRamDisk c.q (gRamDisk (.ofNat i)) aosBlkDiskBlocks)

variable {c : BvClient} {i : Nat}

theorem Bound.of_binding {c' : BvClient} (h : Bound i c) (hsame : c'.binding = c.binding) :
    Bound i c' := by
  have hbinding : Bound i c'.binding := by
    rw [hsame]
    exact { h with }
  exact { hbinding with }

/-- A slot is untouched, retired or bound. -/
def Record (i : Nat) (c : BvClient) : Prop := c = .zero \/ c = retiredClient \/ Bound i c

theorem Record.of_attached (h : Record i c) (hattached : c.attached = true) : Bound i c := by
  rcases h with rfl | rfl | hbound
  · cases hattached
  · cases hattached
  · exact hbound

theorem Record.of_retired (h : Record i c) (hretired : c.retired = true) : c = retiredClient := by
  rcases h with rfl | rfl | hbound
  · cases hretired
  · rfl
  · cases hretired.symm.trans hbound.live

theorem Record.of_free (h : Record i c) (hattached : c.attached = false)
    (hretired : c.retired = false) : c = .zero := by
  rcases h with rfl | rfl | hbound
  · rfl
  · cases hretired
  · cases hattached.symm.trans hbound.attached

/-- The invariant of the client table. -/
def TableOk (g : BvTable) : Prop := ∀ i, Record i (g i)

theorem TableOk.update {g : BvTable} (h : TableOk g) (hc : Record i c) :
    TableOk (Function.update g i c) :=
  (Function.forall_update_iff g Record).mpr ⟨hc, fun j _ => h j⟩

theorem TableOk.serviced {g g' : BvTable} (h : TableOk g) (hserved : Serviced g g') :
    TableOk g' := by
  intro i
  cases hattached : (g i).attached with
  | false =>
    rw [(hserved i).2 hattached]
    exact h i
  | true => exact Or.inr (Or.inr (((h i).of_attached hattached).of_binding (hserved i).1))

end AgentOs.BlkVirt
