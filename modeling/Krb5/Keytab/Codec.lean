import Krb5.Keytab.File

/-!
# Entries in a keytab file

The octets that `krb5_ktfileint_write_entry` writes for an entry, their number, and that
`krb5_ktfileint_internal_read_entry` reads the entry from them.
-/

namespace Krb5.Keytab

open Lib Lib.OpenFile List Reads

variable {id : KtId} {entry : KeytabEntry} {now : Timestamp}

@[simp] theorem length_octets16 (v : KtVersion) (x : Int16) : (octets16 v x).length = 2 := by
  cases v <;> rfl

@[simp] theorem length_octets32 (v : KtVersion) (x : Int32) : (octets32 v x).length = 4 := by
  cases v <;> rfl

theorem ofOctets16_octets16 (v : KtVersion) (x : Int16) : ofOctets16 v (octets16 v x) = x := by
  cases v <;> exact congrArg (fun b => Int16.ofUInt16 (UInt16.ofBitVec b)) (ofLe16_octets x.toBitVec)

theorem ofOctets32_octets32 (v : KtVersion) (x : Int32) : ofOctets32 v (octets32 v x) = x := by
  cases v <;> exact congrArg (fun b => Int32.ofUInt32 (UInt32.ofBitVec b)) (ofLe32_octets x.toBitVec)

theorem reads_int16 (x : Int16) : Reads (readInt16 id) (octets16 id.version x) x := by
  have hitem : Reads (readItem (octets16 id.version x).length : KtCall _) (octets16 id.version x)
      (some (octets16 id.version x)) := readItem _
  rw [length_octets16] at hitem
  refine hitem.bind_nil ?_
  dsimp only
  rw [ofOctets16_octets16]
  exact pure x

theorem reads_int32 (x : Int32) : Reads (readInt32 id) (octets32 id.version x) x := by
  have hitem : Reads (readItem (octets32 id.version x).length : KtCall _) (octets32 id.version x)
      (some (octets32 id.version x)) := readItem _
  rw [length_octets32] at hitem
  refine hitem.bind_nil ?_
  dsimp only
  rw [ofOctets32_octets32]
  exact pure x

/-! ## What is written -/

def counted (id : KtId) (bs : Octets) : Octets := octets16 id.version (.ofNat bs.length) ++ bs

def typeOctets (id : KtId) (type : Int32) : Octets :=
  match id.version with
  | .v1 => []
  | .v2 => octets32 .v2 type

def entryOctets (id : KtId) (entry : KeytabEntry) (now : Timestamp) : Octets :=
  octets16 id.version (countField id entry.principal) ++ (counted id entry.principal.realm ++
    ((writtenComponents entry.principal).flatMap (counted id) ++
      (typeOctets id entry.principal.type ++
        (octets32 id.version now ++ ([entry.vno.toUInt8] ++
          (octets16 id.version entry.key.enctype.toInt16 ++
            (octets16 id.version (.ofNat entry.key.contents.length) ++ entry.key.contents)))))))

theorem lays_failIf (refuses : Bool) (e : KtCode) : Lays (.failIf refuses e : KtCall Unit) [] := by
  cases refuses with
  | true => exact Lays.fail e
  | false => exact Lays.pure ()

theorem lays_putItem (bs : Octets) : Lays (putItem bs) bs :=
  (Lays.write bs).bind_nil fun _ => lays_failIf _ _

theorem lays_putChars (bs : Octets) : Lays (putChars bs) bs :=
  (Lays.write bs).bind_nil fun _ => lays_failIf _ _

theorem lays_putCounted (bs : Octets) : Lays (putCounted id bs) (counted id bs) :=
  (lays_putItem _).bind fun _ => lays_putChars bs

theorem lays_putType (type : Int32) : Lays (putType id type) (typeOctets id type) := by
  rw [putType, typeOctets]
  cases id.version with
  | v1 => exact Lays.pure ()
  | v2 => exact lays_putItem _

theorem lays_putEntry (entry : KeytabEntry) (now : Timestamp) :
    Lays (putEntry id entry now) (entryOctets id entry now) :=
  (lays_putItem _).bind fun _ => (lays_putCounted _).bind fun _ =>
    (Lays.forM lays_putCounted _).bind fun _ => (lays_putType _).bind fun _ =>
      (lays_putItem _).bind fun _ => (lays_putItem _).bind fun _ => (lays_putItem _).bind fun _ =>
        (lays_putItem _).bind fun _ => lays_putChars _

variable {bs : Octets} {s s' : OpenFile} {n : Nat} {l : List Octets}

theorem ne_nil_of_putChars (h : (putChars bs).run s = (.ok (), s')) : bs ≠ [] := by
  rintro rfl
  have hout : out s.room [] = [] := by
    cases s.room with
    | none => rfl
    | some r => exact take_nil
  obtain ⟨n, t, hwrite, hcheck⟩ := run_bind_eq_ok.mp h
  have hn : n = 0 := by
    have := congrArg Prod.fst hwrite
    simp only [write, hout, Except.ok.injEq] at this
    exact this.symm
  rw [hn] at hcheck
  cases hcheck

theorem ne_nil_of_putCounted (h : (putCounted id bs).run s = (.ok (), s')) : bs ≠ [] := by
  obtain ⟨_, _, _, hchars⟩ := run_bind_eq_ok.mp h
  exact ne_nil_of_putChars hchars

theorem ne_nil_of_forM_putCounted (h : (l.forM (putCounted id)).run s = (.ok (), s')) :
    ∀ c ∈ l, c ≠ [] := by
  induction l generalizing s with
  | nil => exact fun _ hc => nomatch hc
  | cons c l ih =>
    obtain ⟨_, _, hfirst, hrest⟩ := run_bind_eq_ok.mp h
    rintro c' (_ | ⟨_, hc'⟩)
    · exact ne_nil_of_putCounted hfirst
    · exact ih hrest c' hc'

theorem putEntry_ok (h : (putEntry id entry now).run s = (.ok (), s')) :
    entry.principal.realm ≠ [] ∧ (∀ c ∈ writtenComponents entry.principal, c ≠ []) ∧
      entry.key.contents ≠ [] := by
  obtain ⟨_, _, -, h⟩ := run_bind_eq_ok.mp h
  obtain ⟨_, _, hrealm, h⟩ := run_bind_eq_ok.mp h
  obtain ⟨_, _, hcomps, h⟩ := run_bind_eq_ok.mp h
  obtain ⟨_, _, -, h⟩ := run_bind_eq_ok.mp h
  obtain ⟨_, _, -, h⟩ := run_bind_eq_ok.mp h
  obtain ⟨_, _, -, h⟩ := run_bind_eq_ok.mp h
  obtain ⟨_, _, -, h⟩ := run_bind_eq_ok.mp h
  obtain ⟨_, _, -, hkey⟩ := run_bind_eq_ok.mp h
  exact ⟨ne_nil_of_putCounted hrealm, ne_nil_of_forM_putCounted hcomps, ne_nil_of_putChars hkey⟩

/-! ## Entries that fit the format -/

/-- The fields have room in the format. That the realm, the components and the key are not empty
is not asked for: such entries are not written. -/
structure FitsFormat (entry : KeytabEntry) : Prop where
  realm : entry.principal.realm.length ≤ 32767
  count_pos : entry.principal.data ≠ []
  count : entry.principal.data.length ≤ 32767
  components : ∀ c ∈ entry.principal.data, c.length ≤ 32767
  vno : entry.vno < 256
  enctype : 0 ≤ entry.key.enctype ∧ entry.key.enctype ≤ 65535
  key : entry.key.contents.length ≤ 32767

theorem FitsFormat.writtenComponents (h : FitsFormat entry) :
    writtenComponents entry.principal = entry.principal.data := by
  rw [Keytab.writtenComponents, Int16.toNatClampNeg_ofNat_of_lt (Nat.lt_succ_of_le h.count), take_length]

theorem length_flatMap_counted (l : List Octets) :
    (l.flatMap (counted id)).length = (l.map fun c => c.length + 2).sum := by
  rw [length_flatMap]
  congr 1
  refine map_congr_left fun c _ => ?_
  rw [counted, length_append, length_octets16, Nat.add_comm]

theorem sizeEntry_eq (hv : id.version = .v2) (entry : KeytabEntry) (now : Timestamp) :
    ktfileintSizeEntry entry = .ofNat (entryOctets id entry now).length := by
  have htype : (typeOctets id entry.principal.type).length = 4 := by
    rw [typeOctets, hv]
    rfl
  have hcounted (bs : Octets) : (counted id bs).length = bs.length + 2 := by
    rw [counted, length_append, length_octets16, Nat.add_comm]
  rw [ktfileintSizeEntry, entryOctets]
  simp only [length_append, length_octets16, length_octets32, length_flatMap_counted, hcounted,
    length_singleton]
  congr 1
  omega

theorem sum_le_of_forall {m : Nat} (h : ∀ c ∈ l, c.length ≤ m) :
    (l.map fun c => c.length + 2).sum ≤ l.length * (m + 2) := by
  induction l with
  | nil => exact Nat.zero_le _
  | cons c l ih =>
    have hc := h c mem_cons_self
    have hl := ih fun c' hc' => h c' (mem_cons_of_mem c hc')
    rw [map_cons, sum_cons, length_cons, Nat.succ_mul]
    omega

theorem length_typeOctets_le (type : Int32) : (typeOctets id type).length ≤ 4 := by
  rw [typeOctets]
  cases id.version with
  | v1 => exact Nat.zero_le _
  | v2 => exact Nat.le_refl _

theorem FitsFormat.length_lt (h : FitsFormat entry) (now : Timestamp) :
    (entryOctets id entry now).length < 2 ^ 31 := by
  have htype : (typeOctets id entry.principal.type).length ≤ 4 := length_typeOctets_le _
  have hcounted : (counted id entry.principal.realm).length ≤ 32767 + 2 := by
    rw [counted, length_append, length_octets16]
    have := h.realm
    omega
  have hsum : ((Keytab.writtenComponents entry.principal).map fun c => c.length + 2).sum ≤
      32767 * (32767 + 2) := by
    rw [h.writtenComponents]
    exact Nat.le_trans (sum_le_of_forall h.components) (Nat.mul_le_mul_right _ h.count)
  have hkey := h.key
  rw [entryOctets]
  simp only [length_append, length_octets16, length_octets32, length_flatMap_counted,
    length_singleton]
  omega

/-! ## What is read -/

theorem reads_count (hpos : 0 < n) (hle : n ≤ 32767) :
    Reads (readCount id) (octets16 id.version (.ofNat n)) n := by
  have hsign : ¬Int16.ofNat n ≤ 0 := by
    rw [Int16.not_le, Int16.lt_iff_toInt_lt, Int16.toInt_ofNat_of_lt (by omega)]
    exact Int.natCast_pos.mpr hpos
  refine (reads_int16 _).bind_nil (failIf (decide_eq_false hsign) ?_)
  rw [Int16.toNatClampNeg_ofNat_of_lt (by omega)]
  exact pure n

theorem reads_componentCount (hv : id.version = .v2) (h : FitsFormat entry) :
    Reads (readComponentCount id) (octets16 id.version (countField id entry.principal))
      entry.principal.data.length := by
  have hcnt : readComponentCount id = readCount id := by rw [readComponentCount, hv]; rfl
  have hfield : countField id entry.principal = .ofNat entry.principal.data.length := by
    rw [countField, hv]
  rw [hcnt, hfield]
  exact reads_count (length_pos_of_ne_nil h.count_pos) h.count

theorem reads_chars (hne : bs ≠ []) : Reads (readChars bs.length) bs bs := by
  refine (read bs).bind_nil (failIf (isEmpty_eq_false_iff.mpr hne) ?_)
  rw [Nat.sub_self, replicate_zero, append_nil]
  exact pure bs

theorem reads_component (hne : bs ≠ []) (hle : bs.length ≤ 32767) :
    Reads (readComponent id) (counted id bs) bs :=
  (reads_count (length_pos_of_ne_nil hne) hle).bind (reads_chars hne)

theorem reads_realm (hne : bs ≠ []) (hle : bs.length ≤ 32767) :
    Reads (readRealm id) (counted id bs) bs := by
  refine (reads_count (length_pos_of_ne_nil hne) hle).bind ((read bs).bind_nil ?_)
  exact failIf (by simp) (pure bs)

theorem reads_type (hv : id.version = .v2) (type : Int32) :
    Reads (readType id) (typeOctets id type) type := by
  have hread : Reads (readInt32 id) (octets32 id.version type) type := reads_int32 type
  rw [hv] at hread
  rw [readType, typeOctets, hv]
  exact hread

theorem reads_vno {vno : UInt32} (h : vno < 256) : Reads readVno [vno.toUInt8] vno := by
  refine (readItem [vno.toUInt8]).bind_nil ?_
  have hback : vno.toUInt8.toUInt32 = vno := by
    rw [← UInt32.toNat_inj]
    exact Nat.mod_eq_of_lt h
  show Reads (pure vno.toUInt8.toUInt32 : KtCall UInt32) [] vno
  rw [hback]
  exact pure vno

theorem enctype_back {x : Int32} (h : 0 ≤ x ∧ x ≤ 65535) : x.toInt16.toUInt16.toUInt32.toInt32 = x := by
  have hnat : x.toBitVec.toNat < 2 ^ 16 := by
    obtain ⟨hpos, hle⟩ := h
    rw [Int32.le_iff_toInt_le] at hpos hle
    have hzero : (0 : Int32).toInt = 0 := rfl
    have hmax : (65535 : Int32).toInt = 65535 := rfl
    have hcond := BitVec.toInt_eq_toNat_cond x.toBitVec
    rw [Int32.toInt_toBitVec] at hcond
    split at hcond <;> omega
  have hwidth : (x.toBitVec.setWidth 16).setWidth 32 = x.toBitVec := by
    apply BitVec.eq_of_toNat_eq
    rw [BitVec.toNat_setWidth, BitVec.toNat_setWidth]
    omega
  apply Int32.toBitVec_inj.mp
  show (x.toBitVec.signExtend 16).setWidth 32 = x.toBitVec
  rw [BitVec.signExtend_eq_setWidth_of_le _ (by decide), hwidth]

theorem reads_enctype (hv : id.version = .v2) {enctype : Int32}
    (h : 0 ≤ enctype ∧ enctype ≤ 65535) :
    Reads (readEnctype id) (octets16 id.version enctype.toInt16) enctype := by
  refine (reads_int16 _).bind_nil ?_
  rw [hv]
  rw [enctype_back h]
  exact pure enctype

theorem reads_body (hv : id.version = .v2) (h : FitsFormat entry) (hrealm : entry.principal.realm ≠ [])
    (hcomps : ∀ c ∈ entry.principal.data, c ≠ []) (hkey : entry.key.contents ≠ [])
    (now : Timestamp) :
    Reads (readBody id) (entryOctets id entry now) { entry with timestamp := now } := by
  have hdata : Reads (times (readComponent id) entry.principal.data.length)
      ((writtenComponents entry.principal).flatMap (counted id)) ⟨entry.principal.data, rfl⟩ := by
    rw [h.writtenComponents]
    exact times fun c hc => reads_component (hcomps c hc) (h.components c hc)
  exact (reads_componentCount hv h).bind ((reads_realm hrealm h.realm).bind (hdata.bind
    ((reads_type hv _).bind ((reads_int32 now).bind ((reads_vno h.vno).bind
      ((reads_enctype hv h.enctype).bind ((reads_count (length_pos_of_ne_nil hkey) h.key).bind
        ((reads_chars hkey).bind_nil (pure _)))))))))

end Krb5.Keytab
