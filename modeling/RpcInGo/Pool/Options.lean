import RpcInGo.Protocol.Message

/-! `PoolOptions` of `pkg/pool` with the checks of `DefaultPoolValidator`.
Durations are nanoseconds. The two configuration warnings only write a log
line and are left out. -/

namespace RpcInGo.Pool.Options
open Protocol.Message

def second : Int := 1000000000

structure PoolOptions where
  maxSize : Int
  minSize : Int
  maxIdleTime : Int
  maxLifetime : Int
  cleanupInterval : Int
  codecType : CodecType
  compressType : CompressType
  dialTimeout : Int
  keepAlive : Bool
  keepAlivePeriod : Int
  enableHealthCheck : Bool
  healthCheckInterval : Int
  waitTimeout : Int
  deriving DecidableEq, Repr

def defaultPoolOptions : PoolOptions where
  maxSize := 100
  minSize := 10
  maxIdleTime := 90 * second
  maxLifetime := 30 * 60 * second
  cleanupInterval := 30 * second
  codecType := codecTypeJSON
  compressType := 0
  dialTimeout := 5 * second
  keepAlive := true
  keepAlivePeriod := 30 * second
  enableHealthCheck := true
  healthCheckInterval := 60 * second
  waitTimeout := 5 * second

def withPoolSize (max min : Int) (opts : PoolOptions) : PoolOptions :=
  { opts with maxSize := max, minSize := min }

def withPoolCodec (codecType : CodecType) (compressType : CompressType) (opts : PoolOptions) :
    PoolOptions :=
  { opts with codecType := codecType, compressType := compressType }

/-- `DefaultPoolValidator.Validate`; `none` accepts the options. -/
def validate (opts : PoolOptions) : Option GoError :=
  if opts.maxSize ≤ 0 then
    some (.errorf "MaxSize must be > 0, got %d" [.int opts.maxSize])
  else if opts.minSize < 0 then
    some (.errorf "MinSize must be >= 0, got %d" [.int opts.minSize])
  else if opts.minSize > opts.maxSize then
    some (.errorf "MinSize (%d) must be <= MaxSize (%d)" [.int opts.minSize, .int opts.maxSize])
  else if opts.maxIdleTime ≤ 0 then
    some (.errorf "MaxIdleTime must be > 0, got %v" [.duration opts.maxIdleTime])
  else if opts.maxLifetime < 0 then
    some (.errorf "MaxLifetime must be >= 0 (0 means unlimited), got %v"
      [.duration opts.maxLifetime])
  else if opts.maxLifetime > 0 ∧ opts.maxLifetime < opts.maxIdleTime then
    some (.errorf "MaxLifetime (%v) should be >= MaxIdleTime (%v)"
      [.duration opts.maxLifetime, .duration opts.maxIdleTime])
  else if opts.cleanupInterval ≤ 0 then
    some (.errorf "CleanupInterval must be > 0, got %v" [.duration opts.cleanupInterval])
  else if opts.cleanupInterval > opts.maxIdleTime then
    some (.errorf "CleanupInterval (%v) should be <= MaxIdleTime (%v)"
      [.duration opts.cleanupInterval, .duration opts.maxIdleTime])
  else if opts.dialTimeout ≤ 0 then
    some (.errorf "DialTimeout must be > 0, got %v" [.duration opts.dialTimeout])
  else if opts.keepAlive ∧ opts.keepAlivePeriod ≤ 0 then
    some (.errorf "KeepAlivePeriod must be > 0 when KeepAlive is enabled, got %v"
      [.duration opts.keepAlivePeriod])
  else if opts.enableHealthCheck ∧ opts.healthCheckInterval ≤ 0 then
    some (.errorf "HealthCheckInterval must be > 0 when health check is enabled, got %v"
      [.duration opts.healthCheckInterval])
  else if opts.waitTimeout < 0 then
    some (.errorf "WaitTimeout must be >= 0 (0 means wait forever), got %v"
      [.duration opts.waitTimeout])
  else if opts.codecType = codecTypeJSON ∨ opts.codecType = codecTypeProtobuf ∨
      opts.codecType = codecTypeMsgPack then
    none
  else
    some (.errorf "unsupported CodecType: %v" [.codec opts.codecType])

/-- What acceptance says about the two sizes. -/
theorem validate_sizes {opts : PoolOptions} (h : validate opts = none) :
    0 < opts.maxSize ∧ 0 ≤ opts.minSize ∧ opts.minSize ≤ opts.maxSize := by
  have hmax : ¬ opts.maxSize ≤ 0 := by
    intro hc
    rw [validate, if_pos hc] at h
    cases h
  have hmin : ¬ opts.minSize < 0 := by
    intro hc
    rw [validate, if_neg hmax, if_pos hc] at h
    cases h
  have hle : ¬ opts.minSize > opts.maxSize := by
    intro hc
    rw [validate, if_neg hmax, if_neg hmin, if_pos hc] at h
    cases h
  omega

example : validate defaultPoolOptions = none := by decide

end RpcInGo.Pool.Options
