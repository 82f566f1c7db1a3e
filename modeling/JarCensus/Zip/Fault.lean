/-!
# Faults of zip archives

Why an archive has no readable directory, or why a member of it cannot be opened.
-/

namespace JarCensus.Zip

/-- Why an archive or a member cannot be opened. -/
inductive Fault where
  /-- The archive is shorter than the shortest directory end. -/
  | headerTooShort
  /-- No directory end stands near the end of the archive. -/
  | noDirectoryEnd
  /-- The archive is one of several disks. -/
  | multiDisk
  /-- The directory end leaves no room for a 64-bit directory end. -/
  | noRoomForWideEnd
  /-- No 64-bit directory end stands where its locator points. -/
  | noWideDirectoryEnd
  /-- The directory does not fit in front of its end. -/
  | badDirectoryRange
  /-- A directory record has the wrong signature. -/
  | badDirectoryRecord
  /-- The extra field of an encrypted member has the wrong length. -/
  | cipherFieldLength
  /-- The extra field of an encrypted member names another vendor. -/
  | cipherVendor
  /-- The extra field of an encrypted member has an unknown version. -/
  | cipherVersion
  /-- The extra field of an encrypted member has an unknown key size. -/
  | cipherStrength
  /-- An encrypted member lacks its extra field. -/
  | cipherFieldMissing
  /-- The offset of a member is beyond every archive. -/
  | offsetTooLarge
  /-- A member needs a password. -/
  | passwordRequired
  /-- A local header has the wrong signature. -/
  | badLocalHeader
  /-- A member is compressed by an unknown method. -/
  | unsupportedMethod
  /-- The archive ends within a record. -/
  | cutShort
  deriving DecidableEq, Repr

/-- The message of a fault. -/
def Fault.message : Fault → String
  | .headerTooShort => invalid "Invalid zip header"
  | .noDirectoryEnd => invalid "Could not find central directory end"
  | .multiDisk => unsupported "Support for multi-disk files is not implemented"
  | .noRoomForWideEnd => invalid "File cannot contain ZIP64 central directory end"
  | .noWideDirectoryEnd => invalid "Could not find ZIP64 central directory end"
  | .badDirectoryRange => invalid "Invalid central directory size or offset"
  | .badDirectoryRecord => invalid "Invalid Central Directory header"
  | .cipherFieldLength => unsupported "AES extra data field has an unsupported length"
  | .cipherVendor => invalid "Invalid AES vendor"
  | .cipherVersion => invalid "Invalid AES vendor version"
  | .cipherStrength => invalid "Invalid AES encryption strength"
  | .cipherFieldMissing => invalid "AES encryption without AES extra data field"
  | .offsetTooLarge => invalid "Archive header is too large"
  | .passwordRequired => unsupported "Password required to decrypt file"
  | .badLocalHeader => invalid "Invalid local file header"
  | .unsupportedMethod => unsupported "Compression method not supported"
  | .cutShort => "failed to fill whole buffer"
where
  /-- The message of an archive that breaks the format. -/
  invalid (reason : String) : String := s!"invalid Zip archive: {reason}"
  /-- The message of an archive that uses the format in an unknown way. -/
  unsupported (reason : String) : String := s!"unsupported Zip archive: {reason}"

/-- The message of a fault followed by that of its cause. The end of the data is its
own cause. -/
def Fault.chain (fault : Fault) : List String :=
  if fault = .cutShort then [fault.message, fault.message] else [fault.message]

end JarCensus.Zip
