import Mathlib.Data.List.Basic

/-!
# Lossy channels

A channel delivers in order what it has taken, and takes what it likes. What it
ever took stands before it as one list, the received part first (`carried`):
a receive only moves the border between the two parts, and a send adds at the
end. `Carries` compares that list with what was sent. It is a sublist in any
case, so nothing arrives twice, late or that was never sent; and it is the
whole of it as long as no send was lost.
-/

namespace Playspace.Lib

structure Channel (α : Type*) where
  inFlight : List α
  received : List α
deriving DecidableEq

namespace Channel

variable {α : Type*} {c c' : Channel α} {a : α} {sent msgs : List α} {whole : Prop}

def new : Channel α :=
  ⟨[], []⟩

def send (c : Channel α) (lost : Bool) (msgs : List α) : Channel α :=
  if lost then c else { c with inFlight := c.inFlight ++ msgs }

/-- The oldest message on the way. -/
def receive (c : Channel α) : Option (α × Channel α) :=
  match c.inFlight with
  | [] => none
  | a :: rest => some (a, ⟨rest, c.received ++ [a]⟩)

def carried (c : Channel α) : List α :=
  c.received ++ c.inFlight

@[simp] theorem received_send (c : Channel α) (lost : Bool) (msgs : List α) :
    (c.send lost msgs).received = c.received := by
  unfold send
  split
  · rfl
  · rfl

@[simp] theorem send_nil (c : Channel α) (lost : Bool) : c.send lost [] = c := by
  cases lost with
  | true => rfl
  | false =>
      show Channel.mk (c.inFlight ++ []) c.received = c
      rw [List.append_nil]

theorem carried_send (c : Channel α) (lost : Bool) (msgs : List α) :
    (c.send lost msgs).carried = c.carried ++ if lost then [] else msgs := by
  cases lost with
  | true => exact (List.append_nil c.carried).symm
  | false => exact (List.append_assoc c.received c.inFlight msgs).symm

theorem receive_eq_some (h : c.receive = some (a, c')) :
    c'.received = c.received ++ [a] ∧ c'.carried = c.carried := by
  obtain ⟨inFlight, received⟩ := c
  cases inFlight with
  | nil => cases h
  | cons b rest =>
      cases h
      exact ⟨rfl, (List.append_cons received a rest).symm⟩

/-! ## What was sent and what is carried -/

/-- `whole` is the condition under which nothing of `sent` was lost. -/
structure Carries (c : Channel α) (sent : List α) (whole : Prop) : Prop where
  sublist : c.carried.Sublist sent
  eq_of_whole : whole → c.carried = sent

theorem Carries.new : (new : Channel α).Carries [] whole :=
  ⟨List.Sublist.refl [], fun _ => rfl⟩

theorem Carries.send {next : Prop} (h : c.Carries sent whole) {lost : Bool}
    (hwhole : next → whole) (hlost : next → msgs ≠ [] → lost = false) :
    (c.send lost msgs).Carries (sent ++ msgs) next := by
  refine ⟨?_, fun hnext => ?_⟩
  · rw [carried_send]
    refine h.sublist.append ?_
    cases lost with
    | true => exact List.nil_sublist msgs
    | false => exact List.Sublist.refl msgs
  · rw [carried_send, h.eq_of_whole (hwhole hnext)]
    cases msgs with
    | nil => rw [ite_self]
    | cons m rest => rw [hlost hnext (List.cons_ne_nil m rest), if_neg Bool.false_ne_true]

/-- A send that never came to the channel. -/
theorem Carries.unsent {next : Prop} (h : c.Carries sent whole) (hnext : ¬ next) :
    c.Carries (sent ++ msgs) next :=
  ⟨h.sublist.trans (List.sublist_append_left sent msgs), fun h => absurd h hnext⟩

theorem Carries.mono {next : Prop} (h : c.Carries sent whole) (hwhole : next → whole) :
    c.Carries sent next :=
  ⟨h.sublist, fun hnext => h.eq_of_whole (hwhole hnext)⟩

theorem Carries.receive (h : c.Carries sent whole) (hreceive : c.receive = some (a, c')) :
    c'.Carries sent whole := by
  obtain ⟨-, hcarried⟩ := receive_eq_some hreceive
  exact ⟨hcarried ▸ h.sublist, fun hwhole => hcarried ▸ h.eq_of_whole hwhole⟩

theorem Carries.received_sublist (h : c.Carries sent whole) : c.received.Sublist sent :=
  (List.sublist_append_left c.received c.inFlight).trans h.sublist

theorem Carries.received_isPrefix (h : c.Carries sent whole) (hwhole : whole) :
    c.received <+: sent :=
  ⟨c.inFlight, h.eq_of_whole hwhole⟩

theorem Carries.received_eq (h : c.Carries sent whole) (hwhole : whole)
    (harrived : c.inFlight = []) : c.received = sent := by
  rw [← h.eq_of_whole hwhole, carried, harrived, List.append_nil]

end Channel

end Playspace.Lib
