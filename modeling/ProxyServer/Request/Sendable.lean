import ProxyServer.Request.CacheControl
import ProxyServer.Request.CacheOrder
import ProxyServer.Request.Replay

/-!
# Messages that can be sent

`write_to` looks at `cache[cur_part]` before it writes. That is in bounds from when a message
is read until it is written, and whatever is saved in the cache can be made a message of.
-/

namespace ProxyServer

namespace BufferedMessage

variable {L : Type} {m m' : BufferedMessage L} {accepted : Nat} {bytes : Bytes}

/-- The message is read and not written. -/
structure Sendable (m : BufferedMessage L) : Prop where
  isRead : m.isRead = true
  inside : m.curPart < m.cache.length

theorem Sendable.transferred (sendable : m.Sendable) (garbage : Bytes) : (m.transferred garbage).Sendable :=
  ⟨sendable.isRead, sendable.inside⟩

theorem writeTo_of_lt (inside : m.curPart < m.cache.length) (accepted : Nat) :
    ∃ bytes m', m.writeTo accepted = some (bytes, m') := by
  simp only [BufferedMessage.writeTo, List.getElem?_eq_getElem inside, Option.bind_eq_bind, Option.bind_some]
  split
  · exact ⟨_, _, rfl⟩
  · exact ⟨_, _, rfl⟩

theorem Sendable.writeTo (sendable : m.Sendable) (written : m.writeTo accepted = some (bytes, m'))
    (unwritten : m'.isWritten = false) : m'.Sendable := by
  have isRead := (writeTo_isRead written).trans sendable.isRead
  rw [isWritten, isRead, Bool.true_and, decide_eq_false_iff_not] at unwritten
  refine ⟨isRead, ?_⟩
  obtain ⟨part, here, -, moved⟩ := writeTo_cases written
  cases moved with
  | whole all => exact Nat.lt_of_le_of_ne sendable.inside unwritten
  | within left => exact sendable.inside

/-- While something can be written, there is a part that it is in. -/
theorem lt_of_canWrite (canWrite : m.canWrite = true) : m.curPart < m.cache.length := by
  simp only [BufferedMessage.canWrite, decide_eq_true_eq] at canWrite
  by_contra behind
  rw [List.getD_eq_getElem?_getD, List.getElem?_eq_none (Nat.le_of_not_lt behind)] at canWrite
  exact absurd canWrite.2 (Nat.not_lt_zero _)

variable [Line L]

theorem sendable_ofHeader (header : HttpHeader L) : (ofHeader header []).Sendable := ⟨rfl, Nat.zero_lt_one⟩

theorem sendable_ofCache {cache : CachedMessage} (parts : cache ≠ []) (made : ofCache cache = .ok m) : m.Sendable := by
  obtain ⟨header, -, made⟩ := Runs.bind_ok.mp made
  cases made
  exact ⟨decide_eq_true (Nat.le_refl _), List.length_pos_iff.mpr parts⟩

omit [Line L] in
theorem Unopened.unread (unopened : m.Unopened) : m.isRead = false := by
  simp [BufferedMessage.isRead, unopened.bodyLength, unopened.read, INF]

theorem Gathered.sendable (gathered : m.Gathered) (isRead : m.isRead = true) : m.Sendable := by
  have opened : m.headerLength ≠ 0 := by
    intro none
    rw [(gathered.unopened none).unread] at isRead
    cases isRead
  obtain ⟨x, holding⟩ := gathered.holding opened
  refine ⟨isRead, ?_⟩
  rw [gathered.curPart, List.length_pos_iff]
  intro empty
  have content := holding.content
  rw [empty, List.flatten_nil] at content
  exact m.header.print_ne_nil (List.append_eq_nil_iff.mp content.symm).1

/-! ### Messages that are read and written -/

/-- The message is somewhere in its transfer. -/
def Streams (m : BufferedMessage L) : Prop := ∃ written, Traced { message := m, written }

theorem streams_new : Streams (new : BufferedMessage L) := ⟨[], traced_start⟩

theorem Streams.read (streams : m.Streams) (read : m.readFrom (bytes.take m.shouldRead) = .ok m') : m'.Streams := by
  obtain ⟨written, traced⟩ := streams
  exact ⟨written, traced.read (List.length_take_le _ _) read⟩

theorem Streams.write (streams : m.Streams) (canWrite : m.canWrite = true)
    (wrote : m.writeTo accepted = some (bytes, m')) : m'.Streams := by
  obtain ⟨written, traced⟩ := streams
  exact ⟨_, traced.write canWrite wrote⟩

/-- A read adds a part to a message that it completes. -/
theorem Streams.sendable (streams : m.Streams) (read : m.readFrom (bytes.take m.shouldRead) = .ok m')
    (isRead : m'.isRead = true) : m'.Sendable := by
  have after := streams.read read
  obtain ⟨written, traced⟩ := streams
  refine ⟨isRead, ?_⟩
  cases readFrom_cases read with
  | body known =>
    have place := traced.part
    show m.curPart < (m.cache ++ [m.buffered _]).length
    rw [List.length_append]
    exact Nat.lt_succ_of_le place
  | waits unknown missing =>
    obtain ⟨later, after⟩ := after
    obtain ⟨-, -, unopened⟩ := after.fresh unknown
    exact absurd isRead (Bool.eq_false_iff.mp unopened.unread)
  | opens unknown x header n cut parsed declared =>
    show 0 < (m.cache ++ [header.print ++ x]).length
    rw [List.length_append]
    exact Nat.succ_pos _

end BufferedMessage

/-! ### The cache -/

/-- A message can be made of what is saved. -/
structure Restorable (cached : CachedMessage) : Prop where
  parts : cached ≠ []
  parses : ∃ header : ResponseHeader, HttpHeader.parse (cached.headD []) = .ok header

theorem Restorable.restored {cached : CachedMessage} (restorable : Restorable cached) :
    ∃ m : ServerResponse, BufferedMessage.ofCache cached = .ok m ∧ m.Sendable := by
  obtain ⟨parts, header, parsed⟩ := restorable
  obtain ⟨m, made⟩ : ∃ m : ServerResponse, BufferedMessage.ofCache cached = .ok m := by
    unfold BufferedMessage.ofCache
    rw [parsed]
    exact ⟨_, rfl⟩
  exact ⟨m, made, BufferedMessage.sendable_ofCache parts made⟩

theorem BufferedMessage.Streams.restorable {m : ServerResponse} (streams : m.Streams) (isRead : m.isRead = true) :
    Restorable m.getCache := by
  obtain ⟨written, traced⟩ := streams
  obtain ⟨h, message, x, rest, shape, short, body, read⟩ := traced.accepted isRead
  rw [show m.getCache = _ from shape]
  exact ⟨nofun, HttpHeader.printed_reads short body read⟩

namespace Cache

/-- The cache is a queue of responses for different URLs that can all be restored. -/
structure Orderly (cache : Cache) : Prop where
  threaded : cache.Threaded
  bounded : cache.entries.length ≤ MAX_CACHE_SIZE
  restorable : ∀ {url cached}, (url, cached) ∈ cache.entries → Restorable cached

variable {cache : Cache} {rqst : ClientRequest} {resp : ServerResponse}

theorem empty_orderly : Orderly .empty where
  threaded := SimpleCache.empty_threaded
  bounded := Nat.zero_le _
  restorable held := by cases held

theorem Orderly.saveIfAllowed (orderly : cache.Orderly) (restorable : Restorable resp.getCache) :
    ∃ cache', cache.saveIfAllowed rqst resp = some cache' ∧ cache'.Orderly := by
  unfold Cache.saveIfAllowed
  dsimp only
  split
  · have room : 2 ≤ MAX_CACHE_SIZE := by decide
    obtain ⟨cache', saved, threaded, entries⟩ := orderly.threaded.insert room (toUrl rqst.getHeader) resp.getCache
    refine ⟨cache', saved, threaded, ?_, fun held => ?_⟩
    · rw [entries]
      exact Fifo.length_step (by decide) (.insert (toUrl rqst.getHeader) resp.getCache) orderly.bounded
    · rcases List.mem_append.mp (SimpleCache.entries_insert saved held) with old | new
      · exact orderly.restorable old
      · cases List.mem_singleton.mp new
        exact restorable
  · exact ⟨cache, rfl, orderly⟩

theorem Orderly.deleteCached (orderly : cache.Orderly) (request : RequestHeader) :
    ∃ cache', cache.deleteCached request = some cache' ∧ cache'.Orderly := by
  obtain ⟨cache', erased, threaded, entries⟩ := orderly.threaded.erase (toUrl request)
  refine ⟨cache', erased, threaded, ?_, fun held => orderly.restorable (SimpleCache.entries_erase erased held)⟩
  rw [entries]
  exact Nat.le_trans (List.length_filter_le _ _) orderly.bounded

end Cache

end ProxyServer
