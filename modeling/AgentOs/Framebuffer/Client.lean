import AgentOs.Ipc.Message
import Mathlib.Data.Fin.Basic

/-!
# Framebuffer clients

The private record the framebuffer service keeps for each client, and how it is
set up at boot and again after a terminal detach.
-/

namespace AgentOs.Framebuffer

def aosFbMaxSurfaces : Nat := 4

abbrev aosFbClients : Nat := 2

def aosFbSurfaceBytes : UInt64 := 1024 * 768 * 4

def aosFbArenaBytes : UInt64 := 2 * 4 * aosFbSurfaceBytes

/-- `aos_fb_surface_t`; a null pointer is address 0. -/
structure FbSurface where
  handle : UInt64 := 0
  sequence : UInt64 := 0
  width : UInt32 := 0
  height : UInt32 := 0
  staging : UInt64 := 0
  committed : UInt64 := 0

/-- `aos_fb_client_t`; the default value is the zeroed record. -/
structure FbClient where
  region : UInt64 := 0
  nextHandle : UInt64 := 0
  generation : UInt32 := 0
  retired : Bool := false
  selectedHandle : UInt64 := 0
  selectedX : UInt32 := 0
  selectedY : UInt32 := 0
  selectedWidth : UInt32 := 0
  selectedHeight : UInt32 := 0
  surfaces : Fin aosFbMaxSurfaces -> FbSurface := fun _ => {}

/-- The words of a region that a fresh binding checks. -/
structure RegionWords where
  reqHead : UInt32
  reqTail : UInt32
  respHead : UInt32
  respTail : UInt32
  detachVersion : UInt32
  detachRequest : UInt32
  detachAck : UInt32
  deriving DecidableEq

def aosFbClientInit (region arena bytes : UInt64) : Option FbClient :=
  if region = 0 \/ arena = 0 \/ bytes < aosFbArenaBytes then none
  else
    some { region, nextHandle := 1
           surfaces := fun i =>
             { staging := arena + (2 * i.val.toUInt64) * aosFbSurfaceBytes
               committed := arena + (2 * i.val.toUInt64 + 1) * aosFbSurfaceBytes } }

/-- `aos_fb_client_rebind`; `r` is what it reads of the region. -/
def aosFbClientRebind (c : FbClient) (region arena bytes : UInt64) (generation : UInt32)
    (r : RegionWords) : Option FbClient :=
  if c.region ≠ 0 \/ c.retired = false \/ c.generation = 0xffffffff \/ generation = 0 \/
      generation ≠ c.generation + 1 \/ region = 0 \/ arena = 0 \/ bytes < aosFbArenaBytes \/
      r ≠ ⟨0, 0, 0, 0, 0, 0, 0⟩ then
    none
  else
    (aosFbClientInit region arena bytes).map fun fresh =>
      { fresh with nextHandle := c.nextHandle, generation }

/-- The detach branch of `aos_fb_pump`. -/
def FbClient.detach (c : FbClient) : FbClient :=
  { nextHandle := c.nextHandle, generation := c.generation, retired := true }

theorem aosFbClientRebind_generation {c fresh : FbClient} {region arena bytes : UInt64}
    {generation : UInt32} {r : RegionWords}
    (h : aosFbClientRebind c region arena bytes generation r = some fresh) :
    fresh.generation = generation := by
  rw [aosFbClientRebind, Option.ite_none_left_eq_some] at h
  obtain ⟨built, -, rfl⟩ := Option.map_eq_some_iff.mp h.2
  rfl

end AgentOs.Framebuffer
