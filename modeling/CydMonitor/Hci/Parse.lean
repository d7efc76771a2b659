import CydMonitor.Hci.Tracker
import CydMonitor.Lib.BigEndian
import Mathlib.Data.List.Basic

/-!
# Controller packets (`Parse` in `firmware/domain/src/hci.cpp`)

A read outside the packet is `none`. The reports are those that the callback is given.
-/

namespace CydMonitor.Hci

structure Report where
  eventType : UInt8
  addressType : UInt8
  address : Octets 6
  dataLength : UInt8
  data : List UInt8
  rssi : Int8
  deriving DecidableEq

/-- The difference of two `size_t`. -/
def sizeSub (a b : ℕ) : ℕ := (a + 2 ^ 64 - b) % 2 ^ 64

/-- So many bytes from a place on. -/
def octetsAt (p : List UInt8) (start n : ℕ) : Option (Octets n) :=
  if h : start + n ≤ p.length then
    some ⟨(p.drop start).take n, by rw [List.length_take, List.length_drop]; omega⟩
  else none

/-- The pass that checks the reports: where they end, unless one is too long. -/
def checkReports (p : List UInt8) : ℕ → ℕ → Option (Option ℕ)
  | 0, pos => some (some pos)
  | count + 1, pos =>
    if sizeSub p.length pos < 10 then some none
    else do
      let dataLength ← p[pos + 8]?
      if dataLength > 31 ∨ sizeSub p.length pos < 10 + dataLength.toNat then some none
      else checkReports p count (pos + 10 + dataLength.toNat)

def reportAt (p : List UInt8) (pos : ℕ) : Option Report := do
  let eventType ← p[pos]?
  let addressType ← p[pos + 1]?
  let address ← octetsAt p (pos + 2) 6
  let dataLength ← p[pos + 8]?
  let data ← octetsAt p (pos + 9) dataLength.toNat
  let rssi ← p[pos + 9 + dataLength.toNat]?
  pure { eventType, addressType, address, dataLength, data := data.val, rssi := rssi.toInt8 }

/-- The pass that calls back with the reports. -/
def deliverReports (p : List UInt8) : ℕ → ℕ → Option (List Report)
  | 0, _ => some []
  | count + 1, pos => do
    let r ← reportAt p pos
    let rest ← deliverReports p count (pos + 10 + r.dataLength.toNat)
    pure (r :: rest)

def parseComplete (p : List UInt8) (e : Event) : Option (Event × List Report) :=
  if p.length < 6 then some (e, [])
  else do
    let low ← p[4]?
    let high ← p[5]?
    if p.length < 7 ∧ (low ≠ 0 ∨ high ≠ 0) then some (e, [])
    else
      let credit ← p[3]?
      let opcode := low.toUInt16 ||| (high.toUInt16 <<< 8)
      if p.length ≥ 7 then
        let status ← p[6]?
        some ({ e with kind := .kComplete, credit, opcode, status }, [])
      else some ({ e with kind := .kComplete, credit, opcode }, [])

def parseStatus (p : List UInt8) (e : Event) : Option (Event × List Report) :=
  if p.length ≠ 7 then some (e, [])
  else do
    let status ← p[3]?
    let credit ← p[4]?
    let low ← p[5]?
    let high ← p[6]?
    let opcode := low.toUInt16 ||| (high.toUInt16 <<< 8)
    some ({ e with kind := .kStatus, status, credit, opcode }, [])

def parseHardwareError (p : List UInt8) (e : Event) : Option (Event × List Report) :=
  if p.length ≠ 4 then some (e, [])
  else do
    let status ← p[3]?
    some ({ e with kind := .kHardwareError, status }, [])

def parseAdvertising (p : List UInt8) (e : Event) : Option (Event × List Report) :=
  if p.length < 5 then some (e, [])
  else do
    let count ← p[4]?
    if count = 0 ∨ count > 0x19 then some (e, [])
    else
      -- Arrayed parameters are interleaved.
      match ← checkReports p count.toNat 5 with
      | none => some (e, [])
      | some stop =>
        if stop ≠ p.length then some (e, [])
        else
          let reports ← deliverReports p count.toNat 5
          some ({ e with kind := .kAdvertising }, reports)

def parseMeta (p : List UInt8) (e : Event) : Option (Event × List Report) :=
  if p.length < 4 then some (e, [])
  else do
    let subevent ← p[3]?
    if subevent = 2 then parseAdvertising p e else some ({ e with kind := .kIgnored }, [])

/-- The event of a packet, and the reports it called back with. -/
def parse (p : List UInt8) : Option (Event × List Report) :=
  if p.length < 3 then some ({}, [])
  else do
    let type ← p[0]?
    let length ← p[2]?
    if type ≠ 4 ∨ p.length ≠ length.toNat + 3 then some ({}, [])
    else
      let code ← p[1]?
      if code = 0x0e then parseComplete p { code }
      else if code = 0x0f then parseStatus p { code }
      else if code = 0x10 then parseHardwareError p { code }
      else if code = 0x3e then parseMeta p { code }
      else some ({ kind := .kIgnored, code }, [])

example : parse [4, 0x0e, 4, 1, 3, 0x0c, 0] =
    some ({ kind := .kComplete, code := 0x0e, credit := 1, opcode := 0x0c03 }, []) := by
  decide

/-- A report's record. -/
def Report.record (r : Report) : List UInt8 :=
  r.eventType :: r.addressType :: (r.address.val ++ r.dataLength :: (r.data ++ [r.rssi.toUInt8]))

/-- A report as the controller may send one. -/
structure Report.Fits (r : Report) : Prop where
  length : r.dataLength.toNat = r.data.length
  short : r.data.length ≤ 31

/-- The packet that lists the reports. -/
def advertisingPacket (reports : List Report) : List UInt8 :=
  4 :: 0x3e :: UInt8.ofNat (2 + (reports.flatMap Report.record).length) :: 2 ::
    UInt8.ofNat reports.length :: reports.flatMap Report.record

/-- Reports that one packet may list. -/
structure Listable (reports : List Report) : Prop where
  count : 1 ≤ reports.length ∧ reports.length ≤ 25
  fits : ∀ r ∈ reports, r.Fits
  room : 2 + (reports.flatMap Report.record).length ≤ 255

section Reads

variable {p rest : List UInt8} {pos : ℕ} {r : Report}

theorem sizeSub_of_le {a b : ℕ} (h : b ≤ a) (ha : a < 2 ^ 64) : sizeSub a b = a - b := by
  rw [sizeSub]
  omega

theorem length_record (r : Report) : r.record.length = 10 + r.data.length := by
  simp [Report.record, r.address.property]
  omega

/-- A byte of a packet is one of what is left of it. -/
theorem getElem?_of_drop {l : List UInt8} (h : p.drop pos = l) (i : ℕ) : p[pos + i]? = l[i]? := by
  rw [← h, List.getElem?_drop]

theorem drop_add {l m : List UInt8} (h : p.drop pos = l ++ m) : p.drop (pos + l.length) = m := by
  rw [← List.drop_drop, h, List.drop_left]

theorem octetsAt_of_drop {n : ℕ} {octets : Octets n} (hpos : pos ≤ p.length)
    (h : p.drop pos = octets.val ++ rest) : octetsAt p pos n = some octets := by
  have hlength := congrArg List.length h
  rw [List.length_drop, List.length_append, octets.property] at hlength
  rw [octetsAt, dif_pos (by omega)]
  refine congrArg some (Subtype.ext ?_)
  show (p.drop pos).take n = octets.val
  rw [h, List.take_left' octets.property]

/-- A record reads as its report. -/
theorem reportAt_record (hr : r.Fits) (h : p.drop pos = r.record ++ rest) :
    reportAt p pos = some r := by
  have hlength := congrArg List.length h
  rw [List.length_drop, List.length_append, length_record] at hlength
  have hhead : p.drop (pos + 2) =
      r.address.val ++ r.dataLength :: (r.data ++ r.rssi.toUInt8 :: rest) := by
    refine drop_add (l := [r.eventType, r.addressType]) (h.trans ?_)
    simp [Report.record]
  have hbody : p.drop (pos + 2 + 6) = r.dataLength :: (r.data ++ r.rssi.toUInt8 :: rest) := by
    rw [← r.address.property]
    exact drop_add hhead
  have hdata : p.drop (pos + 9) = r.data ++ r.rssi.toUInt8 :: rest :=
    drop_add (l := [r.dataLength]) hbody
  have hrssi : p.drop (pos + 9 + r.dataLength.toNat) = r.rssi.toUInt8 :: rest := by
    rw [hr.length]
    exact drop_add hdata
  have htype : p[pos]? = some r.eventType := getElem?_of_drop h 0
  have haddress : p[pos + 1]? = some r.addressType := getElem?_of_drop h 1
  have hlow : p[pos + 8]? = some r.dataLength := getElem?_of_drop hbody 0
  have hhigh : p[pos + 9 + r.dataLength.toNat]? = some r.rssi.toUInt8 := getElem?_of_drop hrssi 0
  have hbytes : octetsAt p (pos + 9) r.dataLength.toNat = some ⟨r.data, hr.length.symm⟩ :=
    octetsAt_of_drop (by omega) hdata
  rw [reportAt, htype, haddress, octetsAt_of_drop (by omega) hhead, hlow]
  simp only [Option.bind_eq_bind, Option.bind_some, hbytes, hhigh]
  simp

/-- Where there is room for a record, there is one. -/
theorem exists_record {dataLength : UInt8} (hlow : p[pos + 8]? = some dataLength)
    (hroom : pos + (10 + dataLength.toNat) ≤ p.length) :
    ∃ r : Report, r.dataLength = dataLength ∧ r.data.length = dataLength.toNat ∧
      p.drop pos = r.record ++ p.drop (pos + 10 + dataLength.toNat) := by
  have hcons (i : ℕ) (hi : i < p.length) : p.drop i = p[i] :: p.drop (i + 1) :=
    List.drop_eq_getElem_cons hi
  have hsplit (i n : ℕ) : p.drop i = (p.drop i).take n ++ p.drop (i + n) := by
    rw [← List.drop_drop, List.take_append_drop]
  have hlow' : p[pos + 8] = dataLength := by
    rw [List.getElem?_eq_getElem (by omega)] at hlow
    exact Option.some.inj hlow
  refine ⟨{ eventType := p[pos], addressType := p[pos + 1], dataLength
            address := ⟨(p.drop (pos + 2)).take 6, by
              rw [List.length_take, List.length_drop]
              omega⟩
            data := (p.drop (pos + 9)).take dataLength.toNat
            rssi := p[pos + 9 + dataLength.toNat].toInt8 }, rfl, ?_, ?_⟩
  · rw [List.length_take, List.length_drop]
    omega
  · simp only [Report.record, List.cons_append, List.append_assoc, List.nil_append,
      UInt8.toUInt8_toInt8]
    have htail : p.drop (pos + 9) = (p.drop (pos + 9)).take dataLength.toNat ++
        p[pos + 9 + dataLength.toNat] :: p.drop (pos + 10 + dataLength.toNat) := by
      refine (hsplit (pos + 9) dataLength.toNat).trans (congrArg _ ?_)
      rw [hcons (pos + 9 + dataLength.toNat) (by omega)]
      exact congrArg (fun i => _ :: p.drop i) (by omega)
    refine (hcons pos (by omega)).trans (congrArg _ ?_)
    refine (hcons (pos + 1) (by omega)).trans (congrArg _ ?_)
    refine (hsplit (pos + 2) 6).trans (congrArg _ ?_)
    rw [hcons (pos + 2 + 6) (by omega)]
    exact congr (congrArg _ hlow') htail

end Reads

section Passes

variable {p : List UInt8} (hsize : p.length < 2 ^ 64)
include hsize

/-- The first pass reads inside the packet, and accepts what is a list of records. -/
theorem checkReports_spec {count pos : ℕ} (hpos : pos ≤ p.length) :
    ∃ stop, checkReports p count pos = some stop ∧ ∀ n ∈ stop, n ≤ p.length ∧
      ∃ reports : List Report, reports.length = count ∧ (∀ r ∈ reports, r.Fits) ∧
        p.drop pos = reports.flatMap Report.record ++ p.drop n := by
  induction count generalizing pos with
  | zero =>
    refine ⟨some pos, rfl, fun n hn => ?_⟩
    obtain rfl := Option.mem_some.mp hn
    exact ⟨hpos, [], rfl, by simp, rfl⟩
  | succ count ih =>
    rw [checkReports, sizeSub_of_le hpos hsize]
    by_cases hshort : p.length - pos < 10
    · exact ⟨none, if_pos hshort, fun n hn => by cases hn⟩
    · obtain ⟨dataLength, hlow⟩ : ∃ b, p[pos + 8]? = some b :=
        ⟨_, List.getElem?_eq_getElem (by omega)⟩
      rw [if_neg hshort, hlow]
      simp only [Option.bind_eq_bind, Option.bind_some]
      by_cases hlong : dataLength > 31 ∨ p.length - pos < 10 + dataLength.toNat
      · exact ⟨none, if_pos hlong, fun n hn => by cases hn⟩
      · obtain ⟨hmax, hroom⟩ := not_or.mp hlong
        obtain ⟨r, hdata, hbytes, hrecord⟩ := exists_record hlow (by omega)
        obtain ⟨stop, hstop, hrest⟩ := @ih (pos + 10 + dataLength.toNat) (by omega)
        rw [if_neg hlong]
        refine ⟨stop, hstop, fun n hn => ?_⟩
        obtain ⟨hn, reports, hcount, hfits, hdrop⟩ := hrest n hn
        have hle : dataLength.toNat ≤ 31 := UInt8.le_iff_toNat_le.mp (UInt8.not_lt.mp hmax)
        refine ⟨hn, r :: reports, by rw [List.length_cons, hcount],
          List.forall_mem_cons.mpr ⟨⟨by rw [hdata, hbytes], hbytes ▸ hle⟩, hfits⟩, ?_⟩
        rw [hrecord, hdrop, List.flatMap_cons, List.append_assoc]

/-- It accepts every list of records. -/
theorem checkReports_records {reports : List Report} {rest : List UInt8} {pos : ℕ}
    (hpos : pos ≤ p.length) (hfits : ∀ r ∈ reports, r.Fits)
    (h : p.drop pos = reports.flatMap Report.record ++ rest) :
    checkReports p reports.length pos =
      some (some (pos + (reports.flatMap Report.record).length)) := by
  induction reports generalizing pos with
  | nil => rfl
  | cons r reports ih =>
    obtain ⟨hr, hrest⟩ := List.forall_mem_cons.mp hfits
    rw [List.flatMap_cons, List.append_assoc] at h
    have hlength := congrArg List.length h
    rw [List.length_drop, List.length_append, length_record] at hlength
    have hlow : p[pos + 8]? = some r.dataLength := by
      have h6 := r.address.property
      have h8 := getElem?_of_drop h 8
      rw [h8, Report.record]
      simp [h6]
    have hnext := drop_add h
    rw [length_record] at hnext
    have hshort := hr.short
    have hbytes := hr.length
    have hmax : ¬ r.dataLength > 31 := UInt8.not_lt.mpr (UInt8.le_iff_toNat_le.mpr (by
      show r.dataLength.toNat ≤ 31
      omega))
    rw [List.length_cons, checkReports, sizeSub_of_le hpos hsize, if_neg (by omega), hlow]
    simp only [Option.bind_eq_bind, Option.bind_some]
    rw [if_neg (not_or.mpr ⟨hmax, by omega⟩), hbytes, Nat.add_assoc,
      ih (by omega) hrest hnext, List.flatMap_cons, List.length_append, length_record,
      Nat.add_assoc]

omit hsize in
/-- The second pass calls back with each of them. -/
theorem deliverReports_records {reports : List Report} {rest : List UInt8} {pos : ℕ}
    (hfits : ∀ r ∈ reports, r.Fits) (h : p.drop pos = reports.flatMap Report.record ++ rest) :
    deliverReports p reports.length pos = some reports := by
  induction reports generalizing pos with
  | nil => rfl
  | cons r reports ih =>
    obtain ⟨hr, hrest⟩ := List.forall_mem_cons.mp hfits
    rw [List.flatMap_cons, List.append_assoc] at h
    have hnext := drop_add h
    rw [length_record] at hnext
    rw [List.length_cons, deliverReports, reportAt_record hr h]
    simp only [Option.bind_eq_bind, Option.bind_some]
    rw [hr.length, Nat.add_assoc, ih hrest hnext]
    rfl

end Passes

/-- The layout that an event of a kind has in full. -/
def Layout (p : List UInt8) : Kind → Prop
  | .kMalformed => False
  | .kComplete =>
    p[1]? = some 0x0e ∧ 6 ≤ p.length ∧ (p.length = 6 → p[4]? = some 0 ∧ p[5]? = some 0)
  | .kStatus => p[1]? = some 0x0f ∧ p.length = 7
  | .kHardwareError => p[1]? = some 0x10 ∧ p.length = 4
  | .kAdvertising => ∃ reports, Listable reports ∧ p = advertisingPacket reports
  | .kIgnored =>
    ∃ code, p[1]? = some code ∧ code ≠ 0x0e ∧ code ≠ 0x0f ∧ code ≠ 0x10 ∧
      (code = 0x3e → ∃ subevent, p[3]? = some subevent ∧ subevent ≠ 2)

/-- An event with the layout of its kind, and reports only of an advertising event. -/
def Faithful (p : List UInt8) (out : Option (Event × List Report)) : Prop :=
  ∃ e reports, out = some (e, reports) ∧ (e.kind = .kMalformed ∨ Layout p e.kind) ∧
    (e.kind ≠ .kAdvertising → reports = [])

section Layouts

variable {p : List UInt8}

theorem faithful_malformed {e : Event} (h : e.kind = .kMalformed) :
    Faithful p (some (e, [])) :=
  ⟨e, [], rfl, .inl h, fun _ => rfl⟩

theorem faithful_of_layout {e : Event} (h : Layout p e.kind) : Faithful p (some (e, [])) :=
  ⟨e, [], rfl, .inr h, fun _ => rfl⟩

private theorem exists_byte {i : ℕ} (h : i < p.length) : ∃ b, p[i]? = some b :=
  ⟨p[i], List.getElem?_eq_getElem h⟩

theorem parseComplete_faithful (hcode : p[1]? = some 0x0e) :
    Faithful p (parseComplete p { code := 0x0e }) := by
  rw [parseComplete]
  by_cases hshort : p.length < 6
  · rw [if_pos hshort]
    exact faithful_malformed rfl
  · obtain ⟨low, hlow⟩ := exists_byte (p := p) (i := 4) (by omega)
    obtain ⟨high, hhigh⟩ := exists_byte (p := p) (i := 5) (by omega)
    obtain ⟨credit, hcredit⟩ := exists_byte (p := p) (i := 3) (by omega)
    rw [if_neg hshort, hlow, hhigh, hcredit]
    simp only [Option.bind_eq_bind, Option.bind_some]
    by_cases hopcode : p.length < 7 ∧ (low ≠ 0 ∨ high ≠ 0)
    · rw [if_pos hopcode]
      exact faithful_malformed rfl
    · have hlayout : Layout p .kComplete := by
        refine ⟨hcode, by omega, fun hsix => ?_⟩
        have hzero := not_or.mp (not_and.mp hopcode (by omega))
        rw [hlow, hhigh, not_not.mp hzero.1, not_not.mp hzero.2]
        exact ⟨rfl, rfl⟩
      rw [if_neg hopcode]
      by_cases hstatus : p.length ≥ 7
      · obtain ⟨status, hbyte⟩ := exists_byte (p := p) (i := 6) (by omega)
        rw [if_pos hstatus, hbyte]
        exact faithful_of_layout hlayout
      · rw [if_neg hstatus]
        exact faithful_of_layout hlayout

theorem parseStatus_faithful (hcode : p[1]? = some 0x0f) :
    Faithful p (parseStatus p { code := 0x0f }) := by
  rw [parseStatus]
  by_cases hlength : p.length = 7
  · obtain ⟨status, hstatus⟩ := exists_byte (p := p) (i := 3) (by omega)
    obtain ⟨credit, hcredit⟩ := exists_byte (p := p) (i := 4) (by omega)
    obtain ⟨low, hlow⟩ := exists_byte (p := p) (i := 5) (by omega)
    obtain ⟨high, hhigh⟩ := exists_byte (p := p) (i := 6) (by omega)
    rw [if_neg (not_not.mpr hlength), hstatus, hcredit, hlow, hhigh]
    exact faithful_of_layout ⟨hcode, hlength⟩
  · rw [if_pos hlength]
    exact faithful_malformed rfl

theorem parseHardwareError_faithful (hcode : p[1]? = some 0x10) :
    Faithful p (parseHardwareError p { code := 0x10 }) := by
  rw [parseHardwareError]
  by_cases hlength : p.length = 4
  · obtain ⟨status, hstatus⟩ := exists_byte (p := p) (i := 3) (by omega)
    rw [if_neg (not_not.mpr hlength), hstatus]
    exact faithful_of_layout ⟨hcode, hlength⟩
  · rw [if_pos hlength]
    exact faithful_malformed rfl

/-- A list of records that fills the packet. -/
theorem eq_advertisingPacket {length count : UInt8} {reports : List Report}
    (htype : p[0]? = some 4) (hcode : p[1]? = some 0x3e) (hlength : p[2]? = some length)
    (hframe : p.length = length.toNat + 3) (hsubevent : p[3]? = some 2)
    (hcount : p[4]? = some count) (hreports : reports.length = count.toNat)
    (hdrop : p.drop 5 = reports.flatMap Report.record) : p = advertisingPacket reports := by
  obtain ⟨a, b, c, d, e, l, rfl⟩ : ∃ a b c d e l, p = a :: b :: c :: d :: e :: l := by
    match p, hcount with
    | a :: b :: c :: d :: e :: l, _ => exact ⟨a, b, c, d, e, l, rfl⟩
  have hl : l = reports.flatMap Report.record := hdrop
  obtain rfl := Option.some.inj htype
  obtain rfl := Option.some.inj hcode
  obtain rfl := Option.some.inj hlength
  obtain rfl := Option.some.inj hsubevent
  obtain rfl := Option.some.inj hcount
  have hc : UInt8.ofNat (2 + (reports.flatMap Report.record).length) = c := by
    rw [← hl, show 2 + l.length = c.toNat by simp at hframe; omega, UInt8.ofNat_toNat]
  rw [advertisingPacket, hc, hreports, UInt8.ofNat_toNat, ← hl]

theorem parseAdvertising_faithful {length : UInt8} (htype : p[0]? = some 4)
    (hcode : p[1]? = some 0x3e) (hlength : p[2]? = some length)
    (hframe : p.length = length.toNat + 3) (hsubevent : p[3]? = some 2) :
    Faithful p (parseAdvertising p { code := 0x3e }) := by
  have hbyte := length.toNat_lt
  rw [parseAdvertising]
  by_cases hshort : p.length < 5
  · rw [if_pos hshort]
    exact faithful_malformed rfl
  · obtain ⟨count, hcount⟩ := exists_byte (p := p) (i := 4) (by omega)
    rw [if_neg hshort, hcount]
    simp only [Option.bind_eq_bind, Option.bind_some]
    by_cases hbounds : count = 0 ∨ count > 0x19
    · rw [if_pos hbounds]
      exact faithful_malformed rfl
    · obtain ⟨stop, hstop, hspec⟩ := @checkReports_spec p (by omega) count.toNat 5 (by omega)
      rw [if_neg hbounds, hstop]
      simp only [Option.bind_some]
      cases stop with
      | none => exact faithful_malformed rfl
      | some stop =>
        obtain ⟨hle, reports, hreports, hfits, hdrop⟩ := hspec stop rfl
        by_cases hfull : stop = p.length
        · rw [hfull, List.drop_length, List.append_nil] at hdrop
          have hdeliver := deliverReports_records hfits (hdrop.trans (List.append_nil _).symm)
          rw [hreports] at hdeliver
          obtain ⟨hzero, hmax⟩ := not_or.mp hbounds
          have hpos : 0 < count.toNat := Nat.pos_of_ne_zero fun h => hzero (UInt8.toNat_inj.mp h)
          have hle25 : count.toNat ≤ 25 := UInt8.le_iff_toNat_le.mp (UInt8.not_lt.mp hmax)
          have hroom := congrArg List.length hdrop
          rw [List.length_drop] at hroom
          simp only [hfull, ne_eq, not_true_eq_false, if_false, hdeliver, Option.bind_some]
          exact ⟨_, _, rfl, .inr ⟨reports, ⟨by omega, hfits, by omega⟩,
            eq_advertisingPacket htype hcode hlength hframe hsubevent hcount hreports hdrop⟩,
            fun h => absurd rfl h⟩
        · simp only [if_pos hfull]
          exact faithful_malformed rfl

theorem parseMeta_faithful {length : UInt8} (htype : p[0]? = some 4)
    (hcode : p[1]? = some 0x3e) (hlength : p[2]? = some length)
    (hframe : p.length = length.toNat + 3) : Faithful p (parseMeta p { code := 0x3e }) := by
  rw [parseMeta]
  by_cases hshort : p.length < 4
  · rw [if_pos hshort]
    exact faithful_malformed rfl
  · obtain ⟨subevent, hsubevent⟩ := exists_byte (p := p) (i := 3) (by omega)
    rw [if_neg hshort, hsubevent]
    simp only [Option.bind_eq_bind, Option.bind_some]
    by_cases hreport : subevent = 2
    · subst hreport
      exact parseAdvertising_faithful htype hcode hlength hframe hsubevent
    · rw [if_neg hreport]
      exact faithful_of_layout ⟨0x3e, hcode, by decide, by decide, by decide,
        fun _ => ⟨subevent, hsubevent, hreport⟩⟩

/-- Nothing outside the packet is read, and only whole packets are more than malformed. -/
theorem parse_faithful (p : List UInt8) :
    ∃ e reports, parse p = some (e, reports) ∧ (e.kind ≠ .kMalformed → p[0]? = some 4 ∧
      (∃ length, p[2]? = some length ∧ p.length = length.toNat + 3) ∧ Layout p e.kind) ∧
        (e.kind ≠ .kAdvertising → reports = []) := by
  rw [parse]
  by_cases hshort : p.length < 3
  · rw [if_pos hshort]
    exact ⟨{}, [], rfl, fun h => absurd rfl h, fun _ => rfl⟩
  · obtain ⟨type, htype⟩ := exists_byte (p := p) (i := 0) (by omega)
    obtain ⟨length, hlength⟩ := exists_byte (p := p) (i := 2) (by omega)
    obtain ⟨code, hcode⟩ := exists_byte (p := p) (i := 1) (by omega)
    rw [if_neg hshort, htype, hlength, hcode]
    simp only [Option.bind_eq_bind, Option.bind_some]
    by_cases hframe : type ≠ 4 ∨ p.length ≠ length.toNat + 3
    · rw [if_pos hframe]
      exact ⟨{}, [], rfl, fun h => absurd rfl h, fun _ => rfl⟩
    · obtain ⟨rfl, hsize⟩ : type = 4 ∧ p.length = length.toNat + 3 := by
        simpa using hframe
      rw [if_neg hframe]
      suffices hfaithful : Faithful p _ by
        obtain ⟨e, reports, hout, hlayout, hreports⟩ := hfaithful
        exact ⟨e, reports, hout, fun hkind => ⟨rfl, ⟨length, rfl, hsize⟩,
          hlayout.resolve_left hkind⟩, hreports⟩
      split_ifs with hcomplete hstatus hhardware hmeta
      · subst hcomplete
        exact parseComplete_faithful hcode
      · subst hstatus
        exact parseStatus_faithful hcode
      · subst hhardware
        exact parseHardwareError_faithful hcode
      · subst hmeta
        exact parseMeta_faithful htype hcode hlength hsize
      · exact faithful_of_layout ⟨code, hcode, hcomplete, hstatus, hhardware,
          fun h => absurd h hmeta⟩

end Layouts

/-- A built packet parses to its reports. -/
theorem parse_advertisingPacket {reports : List Report} (h : Listable reports) :
    parse (advertisingPacket reports) =
      some ({ kind := .kAdvertising, code := 0x3e }, reports) := by
  have hroom := h.room
  have hmost := h.count.2
  have hleast := h.count.1
  have hlength : (UInt8.ofNat (2 + (reports.flatMap Report.record).length)).toNat =
      2 + (reports.flatMap Report.record).length :=
    UInt8.toNat_ofNat_of_lt' (Nat.lt_succ_of_le hroom)
  have hcount : (UInt8.ofNat reports.length).toNat = reports.length :=
    UInt8.toNat_ofNat_of_lt' (Nat.lt_of_le_of_lt hmost (by decide))
  have hsize : (advertisingPacket reports).length =
      2 + (reports.flatMap Report.record).length + 3 := by
    simp only [advertisingPacket, List.length_cons]
    omega
  have hdrop : (advertisingPacket reports).drop 5 = reports.flatMap Report.record ++ [] :=
    (List.append_nil _).symm
  have hbounds : ¬ (UInt8.ofNat reports.length = 0 ∨ UInt8.ofNat reports.length > 0x19) := by
    refine not_or.mpr ⟨fun hzero => ?_, UInt8.not_lt.mpr (UInt8.le_iff_toNat_le.mpr ?_)⟩
    · rw [hzero] at hcount
      exact absurd hcount.symm (Nat.ne_of_gt hleast)
    · rw [hcount]
      exact hmost
  have hcheck := @checkReports_records (advertisingPacket reports) (by omega) reports [] 5
    (by omega) h.fits hdrop
  have hdeliver := deliverReports_records h.fits hdrop
  have hfull : 5 + (reports.flatMap Report.record).length = (advertisingPacket reports).length := by
    omega
  have hadvertising : parseAdvertising (advertisingPacket reports) { code := 0x3e } =
      some ({ kind := .kAdvertising, code := 0x3e }, reports) := by
    have hbyte : (advertisingPacket reports)[4]? = some (UInt8.ofNat reports.length) := rfl
    rw [parseAdvertising, if_neg (by omega), hbyte]
    simp only [Option.bind_eq_bind, Option.bind_some, if_neg hbounds, hcount, hcheck, hdeliver]
    rw [if_neg (not_not.mpr hfull)]
  rw [parse, if_neg (by omega)]
  show (if (4 : UInt8) ≠ 4 ∨ (advertisingPacket reports).length ≠
    (UInt8.ofNat (2 + (reports.flatMap Report.record).length)).toNat + 3 then _ else _) = _
  rw [if_neg (by rw [hlength, hsize]; simp)]
  show parseMeta (advertisingPacket reports) { code := 0x3e } = _
  rw [parseMeta, if_neg (by omega)]
  exact hadvertising

/-- Parsing is total, whole and all or nothing, and undoes the building of a packet. -/
theorem parse_exact :
    (∀ p, ∃ e reports, parse p = some (e, reports) ∧
      (e.kind ≠ .kMalformed → p[0]? = some 4 ∧
        (∃ length, p[2]? = some length ∧ p.length = length.toNat + 3) ∧ Layout p e.kind) ∧
      (e.kind = .kAdvertising ↔ ∃ listed, Listable listed ∧ p = advertisingPacket listed) ∧
      (∀ listed, Listable listed → p = advertisingPacket listed → reports = listed) ∧
      (e.kind ≠ .kAdvertising → reports = [])) ∧
    ∀ listed, Listable listed → ∃ e, parse (advertisingPacket listed) = some (e, listed) := by
  refine ⟨fun p => ?_, fun listed h => ⟨_, parse_advertisingPacket h⟩⟩
  obtain ⟨e, reports, hparse, hkind, hreports⟩ := parse_faithful p
  have hpacket {listed : List Report} (h : Listable listed) (hp : p = advertisingPacket listed) :
      e = { kind := .kAdvertising, code := 0x3e } ∧ reports = listed := by
    rw [hp, parse_advertisingPacket h] at hparse
    have heq := Option.some.inj hparse
    exact ⟨(Prod.mk.inj heq).1.symm, (Prod.mk.inj heq).2.symm⟩
  refine ⟨e, reports, hparse, hkind, ⟨fun hadvertising => ?_, fun ⟨listed, h, hp⟩ => ?_⟩,
    fun listed h hp => (hpacket h hp).2, hreports⟩
  · have hlayout := (hkind (by rw [hadvertising]; decide)).2.2
    rw [hadvertising] at hlayout
    exact hlayout
  · rw [(hpacket h hp).1]

end CydMonitor.Hci
