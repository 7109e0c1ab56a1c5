import Mathlib.Tactic
import Sahl.Core.CatalogueEdits
import Sahl.Terminal.OwnLog

/-! # What a load reads

    A load goes through the events of every device once. `Loading.step_eq_ok` says what one of
    them does to each part that is rebuilt; what a whole log comes to follows part by part. -/

namespace Sahl

/-! ## Section 1: The event a part is read from -/

namespace EventEnvelope

def stockEvent (e : EventEnvelope Payload) : Option InventoryEvent :=
  match e.read with
  | some (.inventory event) => some event
  | _ => none

def staffEvent (e : EventEnvelope Payload) : Option StaffEvent :=
  match e.read with
  | some (.staff event) => some event
  | _ => none

def shiftEvent (e : EventEnvelope Payload) : Option ShiftEvent :=
  match e.read with
  | some (.shift event) => some event
  | _ => none

def catalogueEvent (e : EventEnvelope Payload) : Option CatalogueEvent :=
  match e.read with
  | some (.catalogue event) => some event
  | _ => none

/-- The invoice a stored event issues, with its content. -/
def invoice (e : EventEnvelope Payload) : Option (InvoiceSeal × InvoiceContent) :=
  e.read.bind Terminal.invoiceOf

end EventEnvelope

/-- The tip an invoice leaves. -/
def FiscalTip.ofEntry (entry : InvoiceSeal × InvoiceContent) : FiscalTip :=
  ⟨entry.1.counter, entry.1.hash⟩

namespace Terminal

/-- The invoice of an event that a load of device `own` reads the tip from. -/
def ownInvoice (own : Uuid) (e : EventEnvelope Payload) : Option (InvoiceSeal × InvoiceContent) :=
  e.invoice.filter (·.1.deviceId = own)

/-! ## Section 2: One event -/

namespace Loading

variable {own : Uuid} {l l' : Loading} {e : EventEnvelope Payload}

/-- What a round of a load makes of each part, from the event the part is read from. -/
@[mk_iff]
structure Stepped (own : Uuid) (l : Loading) (e : EventEnvelope Payload) (l' : Loading) :
    Prop where
  book : l'.book = e.readSale.toList.foldl (fun book event => (book.apply event).state) l.book
  stock : e.stockEvent.toList.foldlM InventoryBook.apply l.stock = .ok l'.stock
  staff : e.staffEvent.toList.foldlM Directory.apply l.staff = .ok l'.staff
  catalogue : l'.catalogue = e.catalogueEvent.toList.foldl Catalogue.absorb l.catalogue
  fiscalTip : l'.fiscalTip = ((ownInvoice own e).map .ofEntry).getD l.fiscalTip
  shiftEvents : l'.shiftEvents = l.shiftEvents ++ e.shiftEvent.toList

theorem step_eq_ok (h : l.step own e = .ok l') : Stepped own l e l' := by
  rw [stepped_iff]
  unfold EventEnvelope.readSale EventEnvelope.stockEvent EventEnvelope.staffEvent
    EventEnvelope.catalogueEvent EventEnvelope.shiftEvent ownInvoice EventEnvelope.invoice
  rw [step] at h
  have hnothing : l.shiftEvents = l.shiftEvents ++ [] := (List.append_nil _).symm
  cases hread : e.read with
  | none =>
    rw [hread] at h
    cases h
    exact ⟨rfl, rfl, rfl, rfl, rfl, hnothing⟩
  | some event =>
    rw [hread] at h
    cases event with
    | inventory event =>
      obtain ⟨stock, hstock, h⟩ := Except.bind_eq_ok.mp h
      cases h
      have happly : [event].foldlM InventoryBook.apply l.stock = .ok stock :=
        foldlM_cons_eq_ok.mpr ⟨stock, Except.mapError_eq_ok.mp hstock, rfl⟩
      exact ⟨rfl, happly, rfl, rfl, rfl, hnothing⟩
    | staff event =>
      obtain ⟨staff, hstaff, h⟩ := Except.bind_eq_ok.mp h
      cases h
      have happly : [event].foldlM Directory.apply l.staff = .ok staff :=
        foldlM_cons_eq_ok.mpr ⟨staff, Except.mapError_eq_ok.mp hstaff, rfl⟩
      exact ⟨rfl, rfl, happly, rfl, rfl, hnothing⟩
    | fiscal event =>
      obtain ⟨invoice, content, at', issuedBy⟩ := event
      simp only at h
      -- only the till's own invoices move its fiscal tip
      split at h
      · rename_i hown
        cases h
        refine ⟨rfl, rfl, rfl, rfl, ?_, hnothing⟩
        simp only [Option.bind_some, invoiceOf, FiscalEvent.entry]
        rw [Option.filter_some_pos (by simpa using hown)]
        rfl
      · rename_i hother
        cases h
        refine ⟨rfl, rfl, rfl, rfl, ?_, hnothing⟩
        simp only [Option.bind_some, invoiceOf, FiscalEvent.entry]
        rw [Option.filter_some_neg (by simpa using hother)]
        rfl
    | shift =>
      cases h
      exact ⟨rfl, rfl, rfl, rfl, rfl, rfl⟩
    | sale | catalogue | floor | outlet | purchase =>
      cases h
      exact ⟨rfl, rfl, rfl, rfl, rfl, hnothing⟩

/-! ## Section 3: A whole log -/

theorem foldlM_shiftEvents {log : List (EventEnvelope Payload)}
    (h : log.foldlM (step own) .empty = .ok l) : l.shiftEvents = log.filterMap (·.shiftEvent) := by
  refine foldlM_invariant (fun seen l => l.shiftEvents = seen.filterMap (·.shiftEvent)) ?_ rfl h
  intro seen l e l' hseen hstep
  rw [(step_eq_ok hstep).shiftEvents, hseen, List.filterMap_append, filterMap_cons_toList]
  simp

theorem foldlM_catalogue {log : List (EventEnvelope Payload)}
    (h : log.foldlM (step own) .empty = .ok l) :
    l.catalogue = (log.filterMap (·.catalogueEvent)).foldl Catalogue.absorb .new := by
  refine foldlM_invariant (fun seen l =>
    l.catalogue = (seen.filterMap (·.catalogueEvent)).foldl Catalogue.absorb .new) ?_ rfl h
  intro seen l e l' hseen hstep
  rw [(step_eq_ok hstep).catalogue, hseen, List.filterMap_append, filterMap_cons_toList,
    List.foldl_append]
  simp

end Loading

end Terminal

end Sahl
