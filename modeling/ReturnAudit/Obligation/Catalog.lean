import ReturnAudit.Symbol

/-!
# The catalog

A catalog lists library methods whose result has to be used although nothing in their class files
says so.
-/

namespace ReturnAudit

/-- A method, or all methods of a class but some. -/
structure CatalogEntry where
  /-- The dotted class name. -/
  owner : Bytes := []
  /-- The method name; a star stands for every method that is not excepted. -/
  name : Bytes := []
  /-- The descriptor; when empty, any. -/
  signature : Bytes := []
  /-- The names that a star does not cover. -/
  except : List Bytes := []
  deriving DecidableEq, Repr, Inhabited

namespace CatalogEntry

/-- Whether the entry covers a method of a class. A star covers no initializers. -/
def covers (e : CatalogEntry) (owner name signature : Bytes) : Bool :=
  e.owner = owner && (e.signature.isEmpty || e.signature = signature) &&
    if e.name = Bytes.ofString "*" then
      !e.except.contains name && !MethodRef.isInitializerName name
    else e.name = name

/-- The entry for all methods of a class but some. -/
private def all (owner : String) (except : List String) : CatalogEntry :=
  ⟨owner, "*", [], except.map Bytes.ofString⟩

/-- The entry for the methods of a class with a name. -/
private def one (owner name : String) : CatalogEntry :=
  ⟨owner, name, [], []⟩

/-- The entry for one method. -/
private def exact (owner name signature : String) : CatalogEntry :=
  ⟨owner, name, signature, []⟩

/-- Library methods that are only called for their result. -/
def standard : List CatalogEntry := [
  all "java.lang.String" ["getChars"],
  all "java.math.BigInteger" ["intValue", "longValue", "hashCode"],
  all "java.math.BigDecimal" ["intValue", "longValue", "hashCode"],
  one "java.lang.Thread" "<init>",
  one "java.net.InetAddress" "getByName",
  one "java.security.MessageDigest" "digest",
  one "java.util.concurrent.locks.Lock" "tryLock",
  exact "java.util.concurrent.locks.Condition" "await" "(JLjava/util/concurrent/TimeUnit;)Z",
  one "java.util.concurrent.locks.Condition" "awaitNanos",
  one "java.util.concurrent.locks.Condition" "awaitUntil",
  one "java.util.concurrent.BlockingQueue" "offer",
  one "java.util.concurrent.BlockingQueue" "poll",
  exact "java.util.concurrent.CountDownLatch" "await" "(JLjava/util/concurrent/TimeUnit;)Z",
  one "java.util.concurrent.Semaphore" "tryAcquire",
  one "java.util.concurrent.ExecutorService" "submit",
  one "java.io.File" "createNewFile",
  one "java.io.File" "delete",
  one "java.io.File" "mkdir",
  one "java.io.File" "mkdirs",
  one "java.io.File" "renameTo",
  one "java.io.File" "setLastModified",
  one "java.io.File" "setReadOnly",
  one "java.io.InputStream" "skip",
  exact "java.io.InputStream" "read" "([B)I",
  exact "java.io.InputStream" "read" "([BII)I"]

/-- Whether a catalog covers a method, seen as a method of the class `owner`. -/
def covered (catalog : List CatalogEntry) (owner : Bytes) (ref : MethodRef) : Bool :=
  catalog.any fun e => e.covers owner ref.name ref.signature

end CatalogEntry

end ReturnAudit
