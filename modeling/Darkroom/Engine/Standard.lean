import Darkroom.Engine.Files
import Darkroom.Engine.Pixel

/-!
# The standard engine

Files on a disk and the pixel engine together.
-/

namespace Darkroom

/-- The engine that works on a disk. -/
def Engine.standard : Engine Disk where
  read request disk := (ImageFiles.read request disk, disk)
  write images request disk := ImageFiles.write images request disk
  transform image op disk := (PixelEngine.transform image op, disk)
  assemble images op disk := (PixelEngine.assemble images op, disk)
  readText disk path := (disk.readText path).mapError DiskFault.message
  readBytes disk path := (ImageFiles.readBytes disk path).mapError DiskFault.message
  formats := ImageFiles.formats
  fonts := []

end Darkroom
