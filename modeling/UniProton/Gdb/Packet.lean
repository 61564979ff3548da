import Mathlib

namespace UniProton.Gdb

open List

def osGdbChar2Hex (c : Nat) : Option Nat :=
  if 48≤c ∧ c≤57 then some (c-48)
  else if 97≤c ∧ c≤102 then some (c-97+10)
  else if 65≤c ∧ c≤70 then some (c-65+10)
  else none

def hexPairs : List Nat → Option (List Nat)
  | a::b::l => do
    let hi ← osGdbChar2Hex a
    let lo ← osGdbChar2Hex b
    let bytes ← hexPairs l
    some ((hi*16+lo)%256::bytes)
  | _ => some []

/-- The bytes that `OsGdbHex2Bin` stores and counts; `none` where it refuses the digits, with the
answer 0 too. -/
def osGdbHex2Bin (hex : List Nat) (buflen : Nat) : Option (List Nat) :=
  if buflen<hex.length/2+hex.length%2 then none
  else match hex.length%2, hex with
    | 1, c::l => do
      let dec ← osGdbChar2Hex c
      let bytes ← hexPairs l
      some (dec::bytes)
    | _, _ => hexPairs hex

/-- What `OsGdbGetPacket` returns. -/
inductive GetRet where
  | ok | chksum | tooBig deriving DecidableEq

/-- The bytes written to `buf` with their indices, `*len`, and the characters sent. `*len` is an `int`:
the model is that of fewer than `2^31` characters. -/
structure Packet where
  writes : List (Nat×Nat) := []
  len : Nat := 0
  actual : Nat := 0
  sent : List Nat := []

def waitStart : List Nat → Option (List Nat)
  | [] => none
  | ch::s => if ch=36 then some s else waitStart s

def Packet.put (bufLen : Nat) (p : Packet) (ch : Nat) : Packet :=
  {p with
    writes := if p.len<bufLen-1 then p.writes++[(ch,p.len)] else p.writes
    actual := (p.actual+ch)%256
    len := p.len+1}

def readPayload (bufLen : Nat) : Packet → List Nat → Option (Packet×List Nat)
  | _, [] => none
  | p, ch::s => if ch=35 then some (p,s) else readPayload bufLen (p.put bufLen ch) s

/-- `OsGdbGetPacket` on the characters to come; `none` if it waits for more of them. -/
def osGdbGetPacket (bufLen : Nat) (s : List Nat) : Option (GetRet×Packet) := do
  let s ← waitStart s
  let (p,s) ← readPayload bufLen {} s
  let p := {p with writes:=p.writes++[(0,p.len)]}
  match s with
  | a::b::_ => match osGdbHex2Bin [a,b] 1 with
    | none => some (.chksum,p)
    | some expect =>
      if [p.actual]≠expect then some (.chksum,{p with sent:=[45]})
      else some (if bufLen-1≤p.len then .tooBig else .ok,{p with sent:=[43]})
  | _ => none

/-- The two characters behind a payload are its checksum. -/
def Matches (payload : List Nat) (a b : Nat) : Prop := osGdbHex2Bin [a,b] 1=some [payload.sum%256]

/-- What is asked of a call on a packet. -/
structure Received (bufLen : Nat) (payload : List Nat) (a b : Nat) (r : GetRet×Packet) : Prop where
  short : payload.length<bufLen-1 → Matches payload a b → r.1=.ok ∧
    r.2.len=payload.length ∧ r.2.writes=(payload++[0]).zipIdx
  long : bufLen-1<payload.length → r.1=.tooBig
  inside : ∀ w∈r.2.writes, w.2<bufLen

/-- The part `l` of the payload has been read. -/
structure Reading (bufLen : Nat) (l : List Nat) (p : Packet) : Prop where
  len : p.len=l.length
  actual : p.actual=l.sum%256
  writes : p.writes=(l.take (bufLen-1)).zipIdx

variable {n a b : Nat} {l payload garbage s : List Nat} {p : Packet}

lemma waitStart_garbage (h : 36∉garbage) : waitStart (garbage++36::s)=some s := by
  induction garbage with
  | nil => rfl
  | cons ch g ih =>
    rw [mem_cons,not_or] at h
    rw [cons_append,waitStart,if_neg (Ne.symm h.1)]
    exact ih h.2

lemma Reading.put (h : Reading n l p) (ch : Nat) :
    Reading n (l++[ch]) (p.put n ch) where
  len := by
    rw [length_append,← h.len]
    rfl
  actual := by
    show (p.actual+ch)%256=_
    rw [h.actual,sum_append,Nat.mod_add_mod]
    simp
  writes := by
    simp only [Packet.put,h.len,h.writes]
    split
    . next hlt =>
      rw [take_of_length_le (by omega),take_of_length_le (by simp; omega),zipIdx_append]
      simp
    . next hge => rw [take_append_of_le_length (by omega)]

lemma Reading.readPayload (h : Reading n l p) (hp : 35∉payload) :
    ∃ q, readPayload n p (payload++35::s)=some (q,s) ∧ Reading n (l++payload) q := by
  induction payload generalizing l p with
  | nil => exact ⟨p,rfl,by rwa [append_nil]⟩
  | cons ch payload ih =>
    rw [mem_cons,not_or] at hp
    obtain ⟨q,hq,hr⟩ := ih (h.put ch) hp.2
    rw [append_assoc,singleton_append] at hr
    refine ⟨q,?_,hr⟩
    rw [cons_append,Gdb.readPayload,if_neg (Ne.symm hp.1)]
    exact hq

lemma Reading.received_iff {q : Packet} (h : Reading n payload q) {r : GetRet×Packet}
    (hlen : 2≤n) (hl : r.2.len=q.len) (hw : r.2.writes=q.writes++[(0,q.len)])
    (hok : Matches payload a b → r.1 = if n-1≤q.len then .tooBig else .ok) :
    Received n payload a b r ↔ payload.length<n := by
  rw [h.len] at hl hw hok
  rw [h.writes] at hw
  constructor
  . intro hrec
    exact hrec.inside (0,payload.length) (by simp [hw])
  . intro hc
    refine ⟨fun hs hm => ⟨?_,hl,?_⟩,fun hlt => by omega,fun w hi => ?_⟩
    . rw [hok hm,if_neg (by omega)]
    . rw [hw,take_of_length_le (by omega),zipIdx_append]
      simp
    . rw [hw,take_of_length_le (by omega)] at hi
      rcases mem_append.mp hi with hi | hi
      . have := snd_lt_add_of_mem_zipIdx hi
        omega
      . rw [mem_singleton.mp hi]
        exact hc

/-- A call on a packet does what is asked exactly if the payload leaves room for the zero byte. -/
theorem get_packet_iff (a b : Nat) (rest : List Nat) (hg : 36∉garbage) (hp : 35∉payload)
    (hlen : 2≤n) :
    ∃ r, osGdbGetPacket n (garbage++36::payload++35::a::b::rest)=some r ∧
      (Received n payload a b r ↔ payload.length<n) := by
  have hstart : Reading n [] {} := ⟨rfl,rfl,by simp⟩
  obtain ⟨q,hq,hr⟩ := hstart.readPayload (s:=a::b::rest) hp
  rw [nil_append] at hr
  have hwait := waitStart_garbage (s:=payload++35::a::b::rest) hg
  simp only [append_assoc,cons_append,osGdbGetPacket,hwait,hq,bind,Option.bind]
  cases hb : osGdbHex2Bin [a,b] 1 with
  | none =>
    have hno : ¬Matches payload a b := by
      rw [Matches,hb]
      nofun
    exact ⟨_,rfl,hr.received_iff hlen rfl rfl fun hm => absurd hm hno⟩
  | some expect =>
    dsimp only
    by_cases he : [q.actual]=expect
    . rw [if_neg (not_not_intro he)]
      exact ⟨_,rfl,hr.received_iff hlen rfl rfl fun _ => rfl⟩
    . have hno : ¬Matches payload a b := by
        rw [Matches,hb,← hr.actual,Option.some.injEq,eq_comm]
        exact he
      rw [if_pos he]
      exact ⟨_,rfl,hr.received_iff hlen rfl rfl fun hm => absurd hm hno⟩

theorem get_packet_short : ∃ r, osGdbGetPacket 4 [43,36,103,35,54,55]=some r ∧
    Received 4 [103] 54 55 r := by
  obtain ⟨r,hr,hiff⟩ := get_packet_iff (n:=4) 54 55 [] (by decide : 36∉[43])
    (by decide : 35∉[103]) (by decide)
  exact ⟨r,hr,hiff.mpr (by decide)⟩

/-- Three characters for a buffer of two bytes: the zero byte goes to the index 3. -/
theorem get_packet_outside : ∃ r, osGdbGetPacket 2 [36,97,98,99,35,50,54]=some r ∧
    Matches [97,98,99] 50 54 ∧ (0,3)∈r.2.writes ∧ ¬Received 2 [97,98,99] 50 54 r :=
  ⟨_,rfl,rfl,by decide,fun h => absurd (h.inside (0,3) (by decide)) (by decide)⟩

def osGdbHex2Char (x : Nat) : Option Nat :=
  if x≤9 then some (x+48) else if x≤15 then some (x-10+97) else none

def charPairs : List Nat → Option (List Nat)
  | [] => some []
  | x::buf => do
    let hi ← osGdbHex2Char (x/16)
    let lo ← osGdbHex2Char (x%16)
    let hex ← charPairs buf
    some (hi::lo::hex)

/-- The characters that `OsGdbBin2Hex` stores; `none` where it fails. -/
def osGdbBin2Hex (buf : List Nat) (hexlen : Nat) : Option (List Nat) :=
  if hexlen+1<buf.length*2 then none else charPairs buf

/-- The characters that `OsGdbSendPacketNoAck` sends, and whether it returns 0. -/
def osGdbSendPacketNoAck (data : List Nat) : List Nat×Bool :=
  match osGdbBin2Hex [data.foldl (fun checksum x => (checksum+x)%256) 0] 2 with
  | none => (36::data++[35],false)
  | some buf => (36::data++35::buf,true)

/-- The same for `OsGdbSendPacket`, which `ch` answers. -/
def osGdbSendPacket (data : List Nat) (ch : Nat) : List Nat×Bool :=
  let (sent,ok) := osGdbSendPacketNoAck data
  (sent,ok && ch==43)

lemma checksum_eq (c : Nat) :
    l.foldl (fun checksum x => (checksum+x)%256) (c%256)=(c+l.sum)%256 := by
  induction l generalizing c with
  | nil => rfl
  | cons x l ih => rw [foldl_cons,Nat.mod_add_mod,ih,sum_cons,Nat.add_assoc]

lemma hex_digit : ∀ x<16, ∃ c∈osGdbHex2Char x, osGdbChar2Hex c=some x := by
  decide

lemma hexPairs_charPairs (h : ∀ x∈l, x<256) :
    ∃ hex, charPairs l=some hex ∧ hex.length=l.length*2 ∧ hexPairs hex=some l := by
  induction l with
  | nil => exact ⟨[],rfl,rfl,rfl⟩
  | cons x l ih =>
    obtain ⟨hx,hl⟩ := forall_mem_cons.mp h
    obtain ⟨hex,hc,hlen,hb⟩ := ih hl
    obtain ⟨hi,hhi,hhi'⟩ := hex_digit (x/16) (by omega)
    obtain ⟨lo,hlo,hlo'⟩ := hex_digit (x%16) (by omega)
    rw [Option.mem_def] at hhi hlo
    refine ⟨hi::lo::hex,?_,?_,?_⟩
    . rw [charPairs,hhi,hlo,hc]
      rfl
    . simp only [length_cons]
      omega
    . rw [hexPairs,hhi',hlo',hb]
      change some ((x/16*16+x%16)%256::l)=_
      rw [Nat.div_add_mod',Nat.mod_eq_of_lt hx]

/-- What is written in digits is read back, but the last digit may be past the end of `hex`. -/
theorem hex_round_trip {hexlen : Nat} (h : ∀ x∈l, x<256) (hlen : l.length*2≤hexlen+1) :
    ∃ hex, osGdbBin2Hex l hexlen=some hex ∧ osGdbHex2Bin hex l.length=some l ∧
      (hex.length≤hexlen ↔ l.length*2≠hexlen+1) := by
  obtain ⟨hex,hc,hl,hb⟩ := hexPairs_charPairs h
  refine ⟨hex,?_,?_,by omega⟩
  . rw [osGdbBin2Hex,if_neg (by omega),hc]
  . rw [osGdbHex2Bin,hl,if_neg (by omega),hb]
    intro _ _
    omega

theorem hex_round_trip_past : ∃ hex, osGdbBin2Hex [171] 1=some hex ∧ ¬hex.length≤1 := by
  obtain ⟨hex,hc,-,hiff⟩ := @hex_round_trip [171] 1 (by decide) (by decide)
  exact ⟨hex,hc,fun h => hiff.mp h rfl⟩

lemma osGdbSendPacket_eq (data : List Nat) : ∃ a b, Matches data a b ∧
    ∀ ch, osGdbSendPacket data ch=(36::data++[35,a,b],ch==43) := by
  obtain ⟨hex,hc,hl,hb⟩ := hexPairs_charPairs (l:=[data.sum%256]) (by simp; omega)
  obtain ⟨a,b,rfl⟩ := length_eq_two.mp hl
  refine ⟨a,b,by simpa [Matches,osGdbHex2Bin] using hb,fun ch => ?_⟩
  rw [osGdbSendPacket,osGdbSendPacketNoAck,show data.foldl _ 0=_ from checksum_eq 0,Nat.zero_add,
    osGdbBin2Hex,if_neg (by simp),hc]
  rfl

lemma readPayload_eq (n : Nat) (s : List Nat) (hp : 35∉payload) :
    ∃ q, readPayload n {} (payload++35::s)=some (q,s) ∧ Reading n payload q :=
  Reading.readPayload (l:=[]) ⟨rfl,rfl,by simp⟩ hp

/-- The checksum received is that of `data`. -/
lemma osGdbGetPacket_matches {data : List Nat} (n : Nat) (s : List Nat) (hg : 36∉garbage)
    (hp : 35∉payload) (h : Matches data a b) : ∃ q, Reading n payload q ∧
    osGdbGetPacket n (garbage++(36::payload++[35,a,b])++s)=some
      (if payload.sum%256=data.sum%256 then
        (if n-1≤payload.length then .tooBig else .ok,
          {q with writes:=q.writes++[(0,q.len)], sent:=[43]})
      else (.chksum,{q with writes:=q.writes++[(0,q.len)], sent:=[45]})) := by
  obtain ⟨q,hq,hr⟩ := readPayload_eq n (a::b::s) hp
  have hwait := waitStart_garbage (s:=payload++35::a::b::s) hg
  have hm : osGdbHex2Bin [a,b] 1=_ := h
  refine ⟨q,hr,?_⟩
  simp only [append_assoc,cons_append,nil_append,osGdbGetPacket,hwait,hq,bind,Option.bind,hm]
  rw [hr.actual,hr.len]
  by_cases he : payload.sum%256=data.sum%256 <;> simp [he]

/-- What is sent is received, and the sender succeeds. -/
theorem packet_round_trip (rest : List Nat) (hg : 36∉garbage) (hp : 35∉payload)
    (hlen : payload.length<n-1) :
    ∃ p ch, osGdbGetPacket n (garbage++(osGdbSendPacket payload ch).1++rest)=some (.ok,p) ∧
      p.len=payload.length ∧ p.writes=(payload++[0]).zipIdx ∧ p.sent=[ch] ∧
      (osGdbSendPacket payload ch).2=true := by
  obtain ⟨a,b,hm,hsend⟩ := osGdbSendPacket_eq payload
  obtain ⟨q,hr,hq⟩ := osGdbGetPacket_matches n rest hg hp hm
  rw [if_pos rfl,if_neg (by omega)] at hq
  simp only [hsend]
  refine ⟨_,43,hq,hr.len,?_,rfl,rfl⟩
  rw [hr.writes,hr.len,take_of_length_le (by omega),zipIdx_append]
  simp

theorem packet_round_trip_ok : ∃ p ch,
    osGdbGetPacket 4 (osGdbSendPacket [79,75] ch).1=some (.ok,p) ∧ p.len=2 ∧
      (osGdbSendPacket [79,75] ch).2=true := by
  obtain ⟨p,ch,hp,hlen,-,-,hok⟩ := packet_round_trip (n:=4) [] (by decide : 36∉[])
    (by decide : 35∉[79,75]) (by decide)
  exact ⟨p,ch,by simpa using hp,hlen,hok⟩

/-- One changed character is noticed, and the sender fails. -/
theorem packet_damage_noticed {x y : Nat} (rest : List Nat) (hg : 36∉garbage) (hp : 35∉l++y::s)
    (hx : x<256) (hy : y<256) (hxy : x≠y) :
    ∃ p ch tail, (osGdbSendPacket (l++x::s) ch).1=36::(l++x::s)++tail ∧
      osGdbGetPacket n (garbage++(36::(l++y::s)++tail)++rest)=some (.chksum,p) ∧
      p.sent=[ch] ∧ (osGdbSendPacket (l++x::s) ch).2=false := by
  obtain ⟨a,b,hm,hsend⟩ := osGdbSendPacket_eq (l++x::s)
  obtain ⟨q,-,hq⟩ := osGdbGetPacket_matches n rest hg hp hm
  have hne : (l++y::s).sum%256≠(l++x::s).sum%256 := by
    simp only [sum_append,sum_cons]
    omega
  rw [if_neg hne] at hq
  simp only [hsend]
  exact ⟨_,45,[35,a,b],rfl,hq,rfl,rfl⟩

theorem packet_damage_noticed_ok : ∃ p ch tail,
    (osGdbSendPacket [79,75] ch).1=36::79::75::tail ∧
      osGdbGetPacket 4 (36::79::76::tail)=some (.chksum,p) ∧
      (osGdbSendPacket [79,75] ch).2=false := by
  obtain ⟨p,ch,tail,hs,hr,-,hf⟩ := packet_damage_noticed (n:=4) (l:=[79]) (s:=[]) (x:=75)
    (y:=76) [] (by decide : 36∉[]) (by decide) (by decide) (by decide) (by decide)
  exact ⟨p,ch,tail,hs,by simpa using hr,hf⟩

lemma waitStart_some (h : waitStart s=some l) : ∃ g, 36∉g ∧ s=g++36::l := by
  fun_induction waitStart s with
  | case1 => cases h
  | case2 => exact ⟨[],by simp_all⟩
  | case3 ch s hc ih =>
    obtain ⟨g,hg,rfl⟩ := ih h
    exact ⟨ch::g,by simp [hg,Ne.symm hc]⟩

lemma readPayload_some {q : Packet} (h : readPayload n p s=some (q,l)) :
    ∃ g, 35∉g ∧ s=g++35::l := by
  fun_induction readPayload n p s with
  | case1 => cases h
  | case2 => exact ⟨[],by simp_all⟩
  | case3 p ch s hc ih =>
    obtain ⟨g,hg,rfl⟩ := ih h
    exact ⟨ch::g,by simp [hg,Ne.symm hc]⟩

/-- What is accepted is a packet with its checksum, and its length is an `int`. -/
theorem packet_well_formed (hs : s.length<2^31) (h : osGdbGetPacket n s=some (.ok,p)) :
    ∃ g payload a b rest, s=g++36::payload++35::a::b::rest ∧ 36∉g ∧ 35∉payload ∧
      Matches payload a b ∧ payload.length<n-1 ∧ p.len=payload.length ∧ p.len<2^31 ∧
      p.writes=(payload++[0]).zipIdx := by
  simp only [osGdbGetPacket,Option.bind_eq_bind,Option.bind_eq_some_iff] at h
  obtain ⟨t,ht,⟨q,r⟩,hq,h⟩ := h
  obtain ⟨g,hg,rfl⟩ := waitStart_some ht
  obtain ⟨d,hd,rfl⟩ := readPayload_some hq
  obtain ⟨q',hq',hr⟩ := readPayload_eq n r hd
  obtain ⟨rfl,-⟩ := Prod.mk.inj (Option.some.inj (hq.symm.trans hq'))
  rcases r with _ | ⟨a,_ | ⟨b,rest⟩⟩
  . cases h
  . cases h
  obtain ⟨hm,hlen,rfl⟩ : Matches d a b ∧ d.length<n-1 ∧
      p={q with writes:=q.writes++[(0,q.len)], sent:=[43]} := by
    grind [Matches,hr.actual,hr.len]
  have hint : q.len<2^31 := by
    simp only [length_append,length_cons] at hs
    rw [hr.len]
    omega
  refine ⟨g,d,a,b,rest,by simp,hg,hd,hm,hlen,hr.len,hint,?_⟩
  rw [hr.writes,hr.len,take_of_length_le (by omega),zipIdx_append]
  simp

theorem packet_well_formed_ok :
    ∃ g d a b r, [43,36,79,75,35,57,97]=g++36::d++35::a::b::r ∧ d.length=2 ∧ Matches d a b := by
  obtain ⟨p,hp⟩ : ∃ p, osGdbGetPacket 4 [43,36,79,75,35,57,97]=some (.ok,p) := ⟨_,rfl⟩
  obtain ⟨g,d,a,b,r,hs,-,-,hm,-,hlen,-⟩ := packet_well_formed (by decide) hp
  refine ⟨g,d,a,b,r,hs,?_,hm⟩
  cases hp
  exact hlen.symm

end UniProton.Gdb
